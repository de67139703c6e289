import ContractMeter.Proofs.Headroom

/-!
# ContractMeter.Proofs.Toll

Prices in closed form.

* `Toll` — what a price pays for: an operator, or the bytes of a declared literal.
* `Value.tolls` — the tolls at the priced positions of a tree, in the order in which they are paid.
* `Toll.total` — what tolls come to, or why the first without a price has none.
* `Pricing.gammaAt_totals` — a lenient price that no ceiling stops is the total of its tolls.
* `Toll.decide_total` — which well-formed tolls have a total, and what failure there is otherwise.
* `Value.wellFormed_tolls` — the tolls of a priceable tree are well-formed.
-/

namespace ContractMeter

open Metered

/-! ## Tolls -/

inductive Toll where
  | operator (operator : Value)
  | literal (literal : Value)

/-- The price of an operator in the table. -/
def tablePrice? : Value → Option Nat
  | .text s => operatorGamma? s
  | _ => none

/-- How many bytes a literal is stored as, if it has an encoding. -/
def storedBytes (literal : Value) : Nat :=
  match encodeLiteral literal with
  | .ok text => text.utf8ByteSize
  | .error _ => 0

namespace Toll

def price : Toll → Except Failure Nat
  | operator op => gammaForOperator op
  | literal stored => gammaForLiteral stored

/-- The price in the table, or that of the bytes. -/
def amount : Toll → Nat
  | operator op => (tablePrice? op).getD 0
  | literal stored => gammaPerByte * storedBytes stored

/-- The amounts of tolls together. -/
def sum (tolls : List Toll) : Nat :=
  (tolls.map amount).foldr (· + ·) 0

/-- What tolls come to, or why the first without a price has none. -/
def total : List Toll → Except Failure Nat
  | [] => .ok 0
  | toll :: rest => do
    let first ← toll.price
    let others ← total rest
    return first + others

theorem total_append (front back : List Toll) :
    total (front ++ back) = (do
      let a ← total front
      let b ← total back
      return a + b) := by
  induction front with
  | nil =>
    show total back = (total back >>= fun b => .ok (0 + b))
    cases total back with
    | error failure => rfl
    | ok b => exact congrArg Except.ok (Nat.zero_add b).symm
  | cons toll rest ih =>
    rw [List.cons_append, total, total, ih]
    cases toll.price with
    | error failure => rfl
    | ok first =>
      cases total rest with
      | error failure => rfl
      | ok others =>
        cases total back with
        | error failure => rfl
        | ok b => exact congrArg Except.ok (Nat.add_assoc first others b).symm

end Toll

namespace Value

/-- The toll of an assignment; plain assignment has none. -/
def assignedTolls (operator : Value) : List Toll :=
  if operator.isText "=" then []
  else
    match compoundOperator operator with
    | .ok shortened => [.operator shortened]
    | .error _ => []

/-- The toll of a literal that a declarator stores. -/
def storedTolls (init : Value) : List Toll :=
  if init.hasKind "Literal" then [.literal (Pricing.declaredLiteral init)] else []

/-- What a value is priced for besides its parts. -/
def ownTolls (v : Value) : List Toll :=
  match PriceRule.ofValue v with
  | .operator => [.operator (v.field "operator")]
  | .assignment => assignedTolls ((v.field? "operator").getD (.text "="))
  | .declarator => storedTolls (v.field "init")
  | _ => []

/-- The parts of a value at priced positions, null where there is none. -/
def pricedParts : Value → List Value
  | .list items => items
  | .record fields => (PriceRule.ofValue (.record fields)).parts.map (Fields.get fields)
  | _ => []

theorem sizeOf_pricedPart {v part : Value} (h : part ∈ v.pricedParts) :
    sizeOf part < sizeOf v := by
  cases v with
  | list items =>
    have hm : part ∈ items := h
    have := List.sizeOf_lt_of_mem hm
    rw [Value.list.sizeOf_spec]
    omega
  | record fields =>
    obtain ⟨key, -, rfl⟩ := List.mem_map.mp h
    exact Fields.sizeOf_get fields key
  | _ => cases h

/-- What a value is priced for, in order. -/
def tolls (v : Value) : List Toll :=
  v.pricedParts.attach.flatMap (fun part => tolls part.1) ++ v.ownTolls
termination_by sizeOf v
decreasing_by exact sizeOf_pricedPart part.2

/-- What a loop is priced for between two passes. -/
def passTolls (loop : Value) : List Toll :=
  (loop.field "test").tolls ++ (loop.field "update").tolls

section Tolls

variable {v : Value} {fields : Fields}

theorem tolls_eq (v : Value) : v.tolls = v.pricedParts.flatMap tolls ++ v.ownTolls := by
  rw [tolls]
  simp

theorem tolls_list (items : List Value) : (list items).tolls = items.flatMap tolls := by
  rw [tolls_eq, pricedParts]
  exact List.append_nil _

theorem tolls_record (fields : Fields) : (record fields).tolls =
    (PriceRule.ofValue (record fields)).parts.flatMap (fun key => (Fields.get fields key).tolls) ++
      (record fields).ownTolls := by
  rw [tolls_eq, pricedParts, List.flatMap_map]

@[simp]
theorem tolls_null : null.tolls = [] := by
  rw [tolls_eq]
  rfl

/-- A value whose price has no part and no operator has no toll. -/
theorem tolls_of_rule (hr : PriceRule.ofValue (record fields) = .free ∨
    PriceRule.ofValue (record fields) = .unpriced) : (record fields).tolls = [] := by
  rw [tolls_record, ownTolls]
  rcases hr with hr | hr <;> rw [hr] <;> rfl

theorem tolls_of_literal (h : v.hasKind "Literal" = true) : v.tolls = [] := by
  cases v with
  | record fields => exact tolls_of_rule (.inl (Pricing.ofValue_of_hasKind h))
  | _ => cases h

/-- Whether the literal that a record declares can be stored, if it declares one. -/
def storesEncodable (fields : Fields) : Bool :=
  (record fields).declared?.all fun literal => (encodeLiteral literal).isOk

/-- Whether the price of a record can be read: its kind may be looked up, and it has the fields
that the price needs, with a string as its operator and a literal that can be stored. -/
def isPriceable (fields : Fields) : Bool :=
  (record fields).kind.usableKey && hasRequired fields && hasStringOperator fields &&
    storesEncodable fields

theorem isPriceable_iff : isPriceable fields = true ↔ (record fields).kind.usableKey = true ∧
    hasRequired fields = true ∧ hasStringOperator fields = true ∧
      storesEncodable fields = true := by
  simp only [isPriceable, Bool.and_eq_true, and_assoc]

theorem isString_of_operator {op : Value} (h : hasStringOperator fields = true)
    (ho : Fields.get? fields "operator" = some op) : op.isString = true := by
  rw [hasStringOperator, ho] at h
  exact h

end Tolls

end Value

/-! ## Totals -/

namespace Metered

/-- A ceiling ends the run. -/
def Stopped {α : Type} (x : Metered α) : Prop :=
  ∃ limit, x.outcome = .error (.rejected (.tooDeep limit))

/-- A run that no ceiling ends comes to the total of tolls. -/
def Totals (x : Metered Nat) (tolls : List Toll) : Prop :=
  x.Stopped ∨ x.outcome = Toll.total tolls

section Totals

variable {α β : Type} {x y : Metered Nat} {front back : List Toll}

theorem Stopped.bind {x : Metered α} {f : α → Metered β} (h : x.Stopped) :
    (x >>= f).Stopped := by
  obtain ⟨limit, ho⟩ := h
  obtain ⟨l, outcome⟩ := x
  cases ho
  exact ⟨limit, rfl⟩

theorem Stopped.not_unstopped {x : Metered α} (h : x.Stopped) : ¬ x.Unstopped := by
  obtain ⟨limit, ho⟩ := h
  intro hu
  cases hu _ ho

theorem totals_pure : (Metered.pure 0).Totals [] :=
  .inr rfl

theorem totals_settled (toll : Toll) : (Pricing.settled toll.price).Totals [toll] := by
  refine .inr ?_
  rw [Toll.total, Toll.total]
  cases toll.price with
  | error failure => rfl
  | ok gamma => rfl

/-- Totals add up when one run follows another. -/
theorem Totals.add (hx : x.Totals front) (hy : y.Totals back) :
    (x >>= fun a => y >>= fun b => Metered.pure (a + b)).Totals (front ++ back) := by
  rcases hx with hx | hx
  · exact .inl hx.bind
  obtain ⟨l, outcome⟩ := x
  obtain rfl : outcome = Toll.total front := hx
  rw [Totals, Toll.total_append]
  cases Toll.total front with
  | error failure => exact .inr rfl
  | ok a =>
    rcases hy with hy | hy
    · obtain ⟨limit, ho⟩ := hy.bind (f := fun b => Metered.pure (a + b))
      exact .inl ⟨limit, ho⟩
    · obtain ⟨l', outcome⟩ := y
      obtain rfl : outcome = Toll.total back := hy
      cases Toll.total back with
      | error failure => exact .inr rfl
      | ok b => exact .inr rfl

end Totals

end Metered

/-! ## Prices -/

namespace Pricing

variable {p : Pricing} {price : Value → Metered Nat} {fields : Fields} {v : Value}

/-- A pricing of priceable values that comes to the total of their tolls. -/
def TotalsTolls (price : Value → Metered Nat) : Prop :=
  ∀ ⦃v : Value⦄, v.everywhere Value.isPriceable = true → (price v).Totals v.tolls

theorem optional_totals (h : (price v).Totals v.tolls) : (optional price v).Totals v.tolls := by
  by_cases hn : v = .null
  · rw [hn, Value.tolls_null]
    exact totals_pure
  · rwa [optional_of_ne_null hn]

theorem initial_totals (h : (price v).Totals v.tolls) :
    (initial price v).Totals (v.tolls ++ v.storedTolls) := by
  by_cases hn : v = .null
  · rw [hn, Value.tolls_null]
    exact totals_pure
  · rw [initial_of_ne_null hn, Value.storedTolls]
    split
    · rw [Value.tolls_of_literal ‹_›]
      exact totals_settled (.literal _)
    · rwa [List.append_nil]

theorem assignedOperator_totals {operator : Value} (h : operator.isString = true) :
    (assignedOperator operator).Totals operator.assignedTolls := by
  unfold assignedOperator Value.assignedTolls
  split
  · exact totals_pure
  · cases operator with
    | text s => exact totals_settled (.operator _)
    | broken t => exact totals_settled (.operator _)
    | _ => cases h

theorem unpriced_totals (hs : p.strict = false) (kind : Value) : (p.unpriced kind).Totals [] := by
  rw [unpriced, hs]
  exact .inr rfl

theorem sumOf_totals {items : List Value} (h : ∀ item ∈ items, (price item).Totals item.tolls) :
    (sumOf price items).Totals (items.flatMap Value.tolls) := by
  induction items with
  | nil => exact totals_pure
  | cons item rest ih =>
    rw [List.forall_mem_cons] at h
    simp only [sumOf, map_eq_bind]
    exact h.1.add (ih h.2)

theorem byRule_totals {rule : PriceRule} (hs : p.strict = false) (h : TotalsTolls price)
    (hv : (Value.record fields).everywhere Value.isPriceable = true)
    (hr : PriceRule.ofValue (.record fields) = rule) :
    (p.byRule price rule (.record fields)).Totals (Value.record fields).tolls := by
  have hpart (key : String) :
      (price (Fields.get fields key)).Totals (Fields.get fields key).tolls :=
    h (Value.everywhere_field hv key)
  obtain ⟨-, hreq, hop, -⟩ := Value.isPriceable_iff.mp (Value.check_of_everywhere hv)
  rw [Value.hasRequired, hr] at hreq
  rw [Value.tolls_record, Value.ownTolls, hr]
  simp only [Value.field_record, Value.field?_record]
  cases rule with
  | free => exact totals_pure
  | operator =>
    cases ho : Fields.get? fields "operator" with
    | none => simp [PriceRule.required, ho] at hreq
    | some operator =>
      rw [Fields.get_of_get? ho, byRule, required, Value.field?_record, ho]
      exact totals_settled (.operator operator)
  | expression =>
    cases he : Fields.get? fields "expression" with
    | none => simp [PriceRule.required, he] at hreq
    | some inner =>
      have hp := hpart "expression"
      rw [byRule, required, Value.field?_record, he, PriceRule.parts, List.flatMap_singleton,
        List.append_nil, Fields.get_of_get? he]
      rwa [Fields.get_of_get? he] at hp
  | argument | test =>
    rw [byRule, PriceRule.parts, List.flatMap_singleton, List.append_nil]
    exact optional_totals (hpart _)
  | declarations =>
    rw [byRule, PriceRule.parts, List.flatMap_singleton, List.append_nil, Value.field?_record]
    cases hd : Fields.get? fields "declarations" with
    -- an absent list counts as an empty one, which has no more tolls than null
    | none =>
      have hn := h (v := .list []) rfl
      rw [Value.tolls_list] at hn
      rw [Fields.get, hd, Option.getD_none, Option.getD_none, Value.tolls_null]
      exact hn
    | some declarations =>
      have hp := hpart "declarations"
      rwa [Fields.get_of_get? hd] at hp ⊢
  | declarator =>
    rw [byRule, PriceRule.parts, List.flatMap_singleton]
    exact initial_totals (hpart _)
  | assignment =>
    have hstr : ((Fields.get? fields "operator").getD (.text "=")).isString = true := by
      cases ho : Fields.get? fields "operator" with
      | none => rfl
      | some operator => exact Value.isString_of_operator hop ho
    rw [byRule, PriceRule.parts, List.flatMap_singleton]
    exact (hpart _).add (assignedOperator_totals hstr)
  | testAndInit =>
    rw [byRule, PriceRule.parts, List.flatMap_cons, List.flatMap_singleton, List.append_nil]
    exact (optional_totals (hpart _)).add (optional_totals (hpart _))
  | unpriced => exact unpriced_totals hs _

/-- A lenient price of a priceable tree that no ceiling stops is the total of its tolls. -/
theorem gammaAt_totals (hs : p.strict = false) (levels : Nat) : TotalsTolls (p.gammaAt levels) := by
  induction levels with
  | zero => exact fun _ _ => .inl ⟨_, rfl⟩
  | succ levels ih =>
    intro v hv
    cases v with
    | list items =>
      rw [Value.tolls_list]
      exact sumOf_totals fun item hm => ih (Value.everywhere_mem hv hm)
    | record fields =>
      rw [gammaAt_succ (by simp)]
      split
      · rename_i kind hk
        exact byRule_totals hs ih hv (by rw [PriceRule.ofValue, hk])
      · rename_i hk
        have hr : PriceRule.ofValue (.record fields) = .unpriced := by
          unfold PriceRule.ofValue
          split
          · exact absurd ‹_› (hk _)
          · rfl
        obtain ⟨hkey, -⟩ := Value.isPriceable_iff.mp (Value.check_of_everywhere hv)
        rw [if_pos hkey, Value.tolls_of_rule (.inr hr)]
        exact unpriced_totals hs _
    | host object =>
      rw [gammaAt_succ (by simp), Value.tolls_eq]
      cases object <;> exact unpriced_totals hs _
    | _ =>
      rw [gammaAt_succ (by simp), Value.tolls_eq]
      exact unpriced_totals hs _

theorem gammaPerIteration_totals (hs : p.strict = false) (depth : Int)
    (hv : (Value.record fields).everywhere Value.isPriceable = true) :
    (p.gammaPerIteration depth (.record fields)).Totals (Value.record fields).passTolls := by
  unfold gammaPerIteration
  cases levelsLeft p.maxDepth depth with
  | zero => exact .inl ⟨_, rfl⟩
  | succ levels =>
    have hpart (key : String) : (optional (p.gammaAt levels) (Fields.get fields key)).Totals
        (Fields.get fields key).tolls :=
      optional_totals (gammaAt_totals hs levels (Value.everywhere_field hv key))
    exact (hpart "test").add (hpart "update")

end Pricing

/-! ## What tolls decide -/

/-- An outcome that tolls decide: an amount if and only if each operator among them has a price,
which is then the sum of the prices, and otherwise the rejection of one that has none. -/
structure Toll.Decide (tolls : List Toll) (outcome : Except Failure Int) : Prop where
  accepts : (∃ amount, outcome = .ok amount) ↔
    ∀ op, .operator op ∈ tolls → (tablePrice? op).isSome = true
  amount : ∀ amount, outcome = .ok amount → amount = Toll.sum tolls
  rejects : ∀ failure, outcome = .error failure → ∃ op, .operator op ∈ tolls ∧
    tablePrice? op = none ∧ failure = .rejected (.operatorNotCosted op)

namespace Toll

/-- An operator is a string and a literal can be stored. -/
def WellFormed : Toll → Prop
  | operator op => op.isString = true
  | literal stored => ∃ text, encodeLiteral stored = .ok text

theorem gammaForOperator_of_isString {op : Value} (h : op.isString = true) :
    gammaForOperator op =
      match tablePrice? op with
      | some gamma => .ok gamma
      | none => .error (.rejected (.operatorNotCosted op)) := by
  cases op with
  | text s => rfl
  | broken t => rfl
  | _ => cases h

/-- A toll has the price of its amount, or is an operator without one. -/
theorem price_cases {toll : Toll} (h : toll.WellFormed) :
    toll.price = .ok toll.amount ∧ (∀ op, toll = .operator op → (tablePrice? op).isSome = true) ∨
      ∃ op, toll = .operator op ∧ tablePrice? op = none ∧
        toll.price = .error (.rejected (.operatorNotCosted op)) := by
  cases toll with
  | operator op =>
    rw [price, gammaForOperator_of_isString h, amount]
    cases ht : tablePrice? op with
    | none => exact .inr ⟨op, rfl, ht, rfl⟩
    | some gamma =>
      refine .inl ⟨rfl, fun op' e => ?_⟩
      cases e
      rw [ht]
      rfl
  | literal stored =>
    obtain ⟨text, ht⟩ := h
    refine .inl ⟨?_, nofun⟩
    rw [price, gammaForLiteral, amount, storedBytes, ht]

theorem total_cases {tolls : List Toll} (h : ∀ toll ∈ tolls, toll.WellFormed) :
    total tolls = .ok (sum tolls) ∧
        (∀ op, .operator op ∈ tolls → (tablePrice? op).isSome = true) ∨
      ∃ op, .operator op ∈ tolls ∧ tablePrice? op = none ∧
        total tolls = .error (.rejected (.operatorNotCosted op)) := by
  induction tolls with
  | nil => exact .inl ⟨rfl, nofun⟩
  | cons toll rest ih =>
    obtain ⟨htoll, hrest⟩ := List.forall_mem_cons.mp h
    rcases price_cases htoll with ⟨hp, hfirst⟩ | ⟨op, rfl, hn, hp⟩
    · rcases ih hrest with ⟨ht, hothers⟩ | ⟨op, hm, hn, ht⟩
      · refine .inl ⟨?_, fun op hm => ?_⟩
        · rw [total, hp, ht]
          rfl
        · rcases List.mem_cons.mp hm with e | hm
          · exact hfirst op e.symm
          · exact hothers op hm
      · refine .inr ⟨op, List.mem_cons_of_mem _ hm, hn, ?_⟩
        rw [total, hp, ht]
        rfl
    · refine .inr ⟨op, List.mem_cons_self, hn, ?_⟩
      rw [total, hp]
      rfl

/-- A total, or the failure to come to one, is what the tolls decide. -/
theorem decide_total {tolls : List Toll} (h : ∀ toll ∈ tolls, toll.WellFormed) :
    Decide tolls ((total tolls).map Nat.cast) := by
  rcases total_cases h with ⟨ht, hcosted⟩ | ⟨op, hm, hn, ht⟩
  · rw [ht]
    refine ⟨⟨fun _ => hcosted, fun _ => ⟨_, rfl⟩⟩, ?_, nofun⟩
    rintro amount ⟨⟩
    rfl
  · rw [ht]
    refine ⟨⟨fun ⟨_, h⟩ => (nomatch h), fun hc => ?_⟩, nofun, ?_⟩
    · have hc := hc op hm
      rw [hn] at hc
      cases hc
    · rintro failure ⟨⟩
      exact ⟨op, hm, hn, rfl⟩

end Toll

namespace Value

variable {v part : Value} {fields : Fields} {toll : Toll}

theorem everywhere_pricedPart {check : Fields → Bool} (h : v.everywhere check = true)
    (hp : part ∈ v.pricedParts) : part.everywhere check = true := by
  cases v with
  | list items => exact everywhere_mem h hp
  | record fields =>
    obtain ⟨key, -, rfl⟩ := List.mem_map.mp hp
    exact everywhere_field h key
  | _ => cases hp

theorem wellFormed_assignedToll {operator : Value} (h : operator.isString = true)
    (hm : toll ∈ operator.assignedTolls) : toll.WellFormed := by
  unfold assignedTolls at hm
  split at hm
  · cases hm
  · cases operator with
    | text s =>
      obtain rfl := List.mem_singleton.mp hm
      rfl
    | broken t =>
      obtain rfl := List.mem_singleton.mp hm
      exact isString_ofPoints _
    | _ => cases h

theorem wellFormed_storedToll (hs : storesEncodable fields = true)
    (hk : (record fields).hasKind "VariableDeclarator" = true)
    (hm : toll ∈ ((record fields).field "init").storedTolls) : toll.WellFormed := by
  unfold storedTolls at hm
  split at hm
  · rename_i hl
    obtain rfl := List.mem_singleton.mp hm
    rw [storesEncodable, declared?, hk, hl] at hs
    cases he : encodeLiteral (Pricing.declaredLiteral ((record fields).field "init")) with
    | ok text => exact ⟨text, he⟩
    | error failure =>
      rw [Bool.and_self, if_pos rfl, Option.all_some, he] at hs
      cases hs
  · cases hm

theorem wellFormed_ownToll (h : isPriceable fields = true)
    (hm : toll ∈ (record fields).ownTolls) : toll.WellFormed := by
  obtain ⟨-, hreq, hop, hlit⟩ := isPriceable_iff.mp h
  unfold ownTolls at hm
  split at hm
  · rename_i hr
    obtain rfl := List.mem_singleton.mp hm
    rw [hasRequired, hr] at hreq
    cases ho : Fields.get? fields "operator" with
    | none => simp [PriceRule.required, ho] at hreq
    | some operator =>
      rw [field_record, Fields.get_of_get? ho]
      exact isString_of_operator hop ho
  · refine wellFormed_assignedToll ?_ hm
    rw [field?_record]
    cases ho : Fields.get? fields "operator" with
    | none => rfl
    | some operator => exact isString_of_operator hop ho
  · rename_i hr
    exact wellFormed_storedToll hlit (Pricing.hasKind_of_declarator hr) hm
  · cases hm

/-- The tolls of a priceable tree are strings as operators and literals that can be stored. -/
theorem wellFormed_tolls (h : v.everywhere isPriceable = true) :
    ∀ toll ∈ v.tolls, toll.WellFormed := by
  induction v using tolls.induct with
  | case1 v ih =>
    intro toll hm
    rw [tolls_eq, List.mem_append, List.mem_flatMap] at hm
    rcases hm with ⟨part, hp, hm⟩ | hm
    · exact ih ⟨part, hp⟩ (everywhere_pricedPart h hp) toll hm
    · cases v with
      | record fields => exact wellFormed_ownToll (check_of_everywhere h) hm
      | host object => cases object <;> cases hm
      | _ => cases hm

theorem wellFormed_passTolls (h : v.everywhere isPriceable = true) :
    ∀ toll ∈ v.passTolls, toll.WellFormed :=
  List.forall_mem_append.mpr
    ⟨wellFormed_tolls (everywhere_field h "test"), wellFormed_tolls (everywhere_field h "update")⟩

end Value

end ContractMeter
