import ContractMeter.Proofs.Steady
import ContractMeter.Proofs.StrictMode

/-!
# ContractMeter.Proofs.PriceFault

When the price of a well-formed tree faults, which is no verdict on the contract.

* `Value.WellFormed` — trees as a parser yields them.
* `Metered.FaultsOnly` — a run that faults only for a cause, with a rule for each way to build it.
* `Value.Unstored` — the one cause: a price comes to a declared literal that cannot be stored.
* `Pricing.gammaAt_faults` — prices fault for no other, one lemma for each function they use.
-/

namespace ContractMeter

open Instrumenter (block)

/-! ## Well-formed trees -/

/-- The fields that a rule reads without a default. -/
def PriceRule.required : PriceRule → List String
  | .operator => ["operator"]
  | .expression => ["expression"]
  | _ => []

namespace Value

def isRecord : Value → Bool
  | .record _ => true
  | _ => false

def isRecordOrNull (v : Value) : Bool :=
  match v with
  | .null => true
  | v => v.isRecord

/-- Whether the position of a record, if it has one, is a record with a record as its start. -/
def hasPosition (fields : Fields) : Bool :=
  (Fields.get fields "loc").isRecordOrNull &&
    ((Fields.get fields "loc").field "start").isRecordOrNull

/-- Whether a record has the fields that its price cannot do without. -/
def hasRequired (fields : Fields) : Bool :=
  (PriceRule.ofValue (record fields)).required.all fun name => (Fields.get? fields name).isSome

def hasStringOperator (fields : Fields) : Bool :=
  match Fields.get? fields "operator" with
  | none => true
  | some operator => operator.isString

/-- Whether the cases of a `switch` are records. -/
def holdsCases (fields : Fields) : Bool :=
  (record fields).container != .switch || (Fields.get fields "cases").items.all isRecord

def isReadable (fields : Fields) : Bool :=
  hasPosition fields && hasRequired fields && hasStringOperator fields && holdsCases fields

/-- A tree as a parser yields it: kinds, names and operators are strings, statement lists are
lists, and each node has the fields that the passes read. Literals are not restricted. -/
structure WellFormed (v : Value) : Prop where
  steady : v.Steady
  lists : v.listShaped = true
  readable : v.everywhere isReadable = true

section WellFormed

variable {v w : Value} {fields : Fields} {items : List Value}

theorem get_of {P : Value → Prop} {key : String} (hn : P .null)
    (hw : ∀ w, Fields.get? fields key = some w → P w) : P (Fields.get fields key) := by
  cases h : Fields.get? fields key with
  | none => rwa [Fields.get, h]
  | some w =>
    rw [Fields.get_of_get? h]
    exact hw w h

theorem WellFormed.child? {edge : Edge} (h : v.WellFormed) (hw : v.child? edge = some w) :
    w.WellFormed :=
  ⟨h.steady.child? hw, everywhere_child? h.lists hw, everywhere_child? h.readable hw⟩

theorem WellFormed.item (h : (list items).WellFormed) (hv : v ∈ items) : v.WellFormed := by
  obtain ⟨i, hi⟩ := List.mem_iff_getElem?.mp hv
  have hc : (list items).child? (.item i) = some v := hi
  exact h.child? hc

theorem wellFormed_null : null.WellFormed :=
  ⟨⟨rfl, rfl, rfl⟩, rfl, rfl⟩

theorem wellFormed_nil : (list []).WellFormed :=
  ⟨⟨rfl, rfl, rfl⟩, rfl, rfl⟩

theorem wellFormed_emptyBlock : (block (list [])).WellFormed :=
  ⟨⟨rfl, rfl, rfl⟩, rfl, rfl⟩

theorem WellFormed.isReadable (h : (record fields).WellFormed) :
    hasPosition fields = true ∧ hasRequired fields = true ∧ hasStringOperator fields = true ∧
      holdsCases fields = true := by
  have hr := check_of_everywhere h.readable
  simpa only [Value.isReadable, Bool.and_eq_true, and_assoc] using hr

theorem positionFields_of_isRecordOrNull (h : v.isRecordOrNull = true) :
    ∃ fields, v.positionFields = .ok fields ∧ ∀ key, Fields.get fields key = v.field key := by
  cases v with
  | null => exact ⟨[], rfl, fun key => rfl⟩
  | record fields =>
    cases fields with
    | nil => exact ⟨[], rfl, fun key => rfl⟩
    | cons field rest => exact ⟨field :: rest, rfl, fun key => rfl⟩
  | _ => cases h

theorem line_of_hasPosition (h : hasPosition fields = true) :
    ∃ line, (record fields).line = .ok line := by
  obtain ⟨hl, hs⟩ := Bool.and_eq_true_iff.mp h
  obtain ⟨loc, hloc, hget⟩ := positionFields_of_isRecordOrNull hl
  obtain ⟨start, hstart, -⟩ := positionFields_of_isRecordOrNull hs
  exact ⟨Fields.get start "line", by simp only [Value.line, hloc, hget, hstart]⟩

theorem WellFormed.line (h : v.WellFormed) : ∃ line, v.line = .ok line := by
  cases v with
  | record fields => exact line_of_hasPosition h.isReadable.1
  | _ => exact ⟨.null, rfl⟩

end WellFormed

end Value

/-! ## Causes of faults -/

namespace Metered

/-- A run that ends with a fault only for a cause. -/
def FaultsOnly {α : Type} (x : Metered α) (cause : Fault → Prop) : Prop :=
  ∀ fault, x.outcome = .error (.faulted fault) → cause fault

section FaultsOnly

variable {α β : Type} {cause cause' : Fault → Prop} {x : Metered α}

theorem faultsOnly_pure (a : α) : (Metered.pure a).FaultsOnly cause :=
  fun _ h => nomatch h

theorem faultsOnly_reject (reason : Rejection) : (reject reason : Metered α).FaultsOnly cause :=
  fun _ h => nomatch h

theorem FaultsOnly.bind {f : α → Metered β} (h : x.FaultsOnly cause)
    (hf : ∀ l a, x.Yields l a → (f a).FaultsOnly cause) : (x >>= f).FaultsOnly cause := by
  intro fault ho
  obtain ⟨l, outcome⟩ := x
  cases outcome with
  | ok a => exact hf l a rfl fault ho
  | error failure =>
    have ho : (.error failure : Except Failure β) = .error (.faulted fault) := ho
    cases ho
    exact h fault rfl

theorem FaultsOnly.map {f : α → β} (h : x.FaultsOnly cause) : (x.map f).FaultsOnly cause := by
  intro fault ho
  obtain ⟨l, outcome⟩ := x
  cases outcome with
  | ok a => cases ho
  | error failure =>
    cases ho
    exact h fault rfl

theorem FaultsOnly.mono (h : x.FaultsOnly cause) (hc : ∀ fault, cause fault → cause' fault) :
    x.FaultsOnly cause' :=
  fun fault ho => hc fault (h fault ho)

end FaultsOnly

end Metered

open Metered

namespace View

/-- Whether a price comes to what is in view. -/
def isPriced : View → Bool
  | entered _ charged => charged
  | priced => true
  | unseen => false

theorem follow_unseen (v : Value) (path : Path) : unseen.follow v path = unseen := by
  induction path generalizing v with
  | nil => rfl
  | cons edge rest ih =>
    rw [follow]
    cases v.child? edge with
    | none => rfl
    | some w => exact ih w

theorem along_priced {v : Value} {edge : Edge} (h : v.pricesInto edge = true) :
    priced.along v edge = priced :=
  if_pos h

end View

namespace Value

/-- The literal that a declarator stores. -/
def declared? (v : Value) : Option Value :=
  if v.hasKind "VariableDeclarator" && (v.field "init").hasKind "Literal" then
    some (Pricing.declaredLiteral (v.field "init"))
  else none

/-- Whether no record of a tree declares a literal. -/
def declaresNothing (v : Value) : Bool :=
  v.everywhere fun fields => (record fields).declared?.isNone

/-- A price comes to the declarator at a path, which stores a literal. -/
def Stores (v : Value) (view : View) (path : Path) (literal : Value) : Prop :=
  ∃ w, v.at? path = some w ∧ (view.follow v path).isPriced = true ∧ w.declared? = some literal

/-- A price comes to a literal whose storing faults. -/
def Unstored (v : Value) (view : View) (fault : Fault) : Prop :=
  ∃ path literal, v.Stores view path literal ∧ encodeLiteral literal = .error (.faulted fault)

section Unstored

variable {v w : Value} {view : View} {edge : Edge} {fault : Fault}

theorem Unstored.child (hw : v.child? edge = some w) (h : w.Unstored (view.along v edge) fault) :
    v.Unstored view fault := by
  obtain ⟨path, literal, ⟨u, hu, hp, hd⟩, he⟩ := h
  refine ⟨edge :: path, literal, ⟨u, (at?_of_child? hw).trans hu, ?_, hd⟩, he⟩
  simpa only [View.follow, hw] using hp

end Unstored

end Value

/-- A run over a tree that declares nothing does not fault for its literals. -/
theorem Metered.FaultsOnly.undeclared {α : Type} {x : Metered α} {cause : Fault → Prop}
    {v : Value} {view : View} (h : x.FaultsOnly (v.Unstored view))
    (hd : v.declaresNothing = true) : x.FaultsOnly cause := by
  refine h.mono ?_
  rintro fault ⟨path, literal, ⟨w, hw, -, hl⟩, -⟩
  have hn := Value.everywhere_at? hd hw
  cases w with
  | record fields =>
    have hn := Value.check_of_everywhere hn
    rw [hl] at hn
    cases hn
  | _ => cases hl

/-! ## Prices -/

namespace Pricing

variable {p : Pricing} {price : Value → Metered Nat} {v w : Value} {fields : Fields}
  {cause : Fault → Prop}

theorem settled_operator_faults {operator : Value} (h : operator.isString = true) :
    (settled (gammaForOperator operator)).FaultsOnly cause := by
  cases operator with
  | text s =>
    have hu : (Value.text s).usableKey = true := rfl
    simp only [gammaForOperator, if_pos hu]
    cases operatorGamma? s with
    | none => exact faultsOnly_reject _
    | some gamma => exact faultsOnly_pure gamma
  | broken t => exact faultsOnly_reject _
  | _ => cases h

theorem assignedOperator_faults {operator : Value} (h : operator.isString = true) :
    (assignedOperator operator).FaultsOnly cause := by
  unfold assignedOperator
  split
  · exact faultsOnly_pure 0
  · cases operator with
    | text s => exact settled_operator_faults rfl
    | broken t => exact settled_operator_faults (Value.isString_ofPoints _)
    | _ => cases h

theorem settled_literal_faults (literal : Value) :
    (settled (gammaForLiteral literal)).FaultsOnly
      fun fault => encodeLiteral literal = .error (.faulted fault) := by
  intro fault h
  unfold gammaForLiteral at h
  cases he : encodeLiteral literal with
  | ok text =>
    rw [he] at h
    cases h
  | error failure =>
    rw [he] at h
    cases h
    rfl

theorem unpriced_faults (kind : Value) : (p.unpriced kind).FaultsOnly cause := by
  unfold unpriced
  split
  · exact faultsOnly_reject _
  · exact fun _ h => nomatch h

theorem optional_faults (h : v ≠ .null → (price v).FaultsOnly cause) :
    (optional price v).FaultsOnly cause := by
  by_cases hn : v = .null
  · subst hn
    exact faultsOnly_pure 0
  · rw [optional_of_ne_null hn]
    exact h hn

theorem sumOf_faults {items : List Value} (h : ∀ item ∈ items, (price item).FaultsOnly cause) :
    (sumOf price items).FaultsOnly cause := by
  induction items with
  | nil => exact faultsOnly_pure 0
  | cons item rest ih =>
    rw [List.forall_mem_cons] at h
    exact h.1.bind fun _ _ _ => (ih h.2).map

theorem ofKind_eq_declarator {kind : String} (h : PriceRule.ofKind kind = .declarator) :
    kind = "VariableDeclarator" := by
  unfold PriceRule.ofKind at h
  split at h
  · cases h
  · unfold PriceRule.ofActiveKind at h
    split at h <;> first | rfl | cases h

theorem hasKind_of_declarator (h : PriceRule.ofValue v = .declarator) :
    v.hasKind "VariableDeclarator" = true := by
  unfold PriceRule.ofValue at h
  split at h
  · rename_i kind hk
    obtain rfl := ofKind_eq_declarator h
    unfold Value.kind at hk
    rw [Value.hasKind_iff]
    cases ht : v.field? "type" with
    | none =>
      -- the name of a type is no kind with a rule
      rw [ht, Option.getD_none, Value.text.injEq] at hk
      revert hk
      unfold Value.typeName
      split <;> decide
    | some t =>
      rw [ht, Option.getD_some] at hk
      rw [hk]
  · cases h

/-- A pricing of well-formed values that faults only on literals. -/
def FaultsOnLiterals (price : Value → Metered Nat) : Prop :=
  ∀ ⦃v : Value⦄, v.WellFormed → (price v).FaultsOnly (v.Unstored .priced)

theorem FaultsOnLiterals.part {name : String} (h : FaultsOnLiterals price)
    (hv : (Value.record fields).WellFormed)
    (hn : (PriceRule.ofValue (.record fields)).parts.contains name = true)
    (hw : Fields.get? fields name = some w) :
    (price w).FaultsOnly ((Value.record fields).Unstored .priced) := by
  have hc : (Value.record fields).child? (.field name) = some w := hw
  have hp : (Value.record fields).pricesInto (.field name) = true := hn
  refine (h (hv.child? hc)).mono fun fault hu => .child hc ?_
  rwa [View.along_priced hp]

theorem FaultsOnLiterals.get {name : String} (h : FaultsOnLiterals price)
    (hv : (Value.record fields).WellFormed)
    (hn : (PriceRule.ofValue (.record fields)).parts.contains name = true) :
    (price (Fields.get fields name)).FaultsOnly ((Value.record fields).Unstored .priced) := by
  refine Value.get_of ?_ fun w hw => h.part hv hn hw
  exact (h Value.wellFormed_null).undeclared rfl

theorem initial_faults {init : Value} (hp : (price init).FaultsOnly cause)
    (hl : init.hasKind "Literal" = true → ∀ fault,
      encodeLiteral (declaredLiteral init) = .error (.faulted fault) → cause fault) :
    (initial price init).FaultsOnly cause := by
  unfold initial
  split
  · exact faultsOnly_pure 0
  · split
    · exact (settled_literal_faults _).mono (hl ‹_›)
    · exact hp

theorem byRule_faults {rule : PriceRule} (h : FaultsOnLiterals price)
    (hv : (Value.record fields).WellFormed) (hr : PriceRule.ofValue (.record fields) = rule) :
    (p.byRule price rule (.record fields)).FaultsOnly ((Value.record fields).Unstored .priced) := by
  obtain ⟨-, hreq, hop, -⟩ := hv.isReadable
  unfold Value.hasRequired at hreq
  unfold Value.hasStringOperator at hop
  rw [hr] at hreq
  have hpart {name : String} (hn : rule.parts.contains name = true) :
      (price (Fields.get fields name)).FaultsOnly ((Value.record fields).Unstored .priced) :=
    h.get hv (hr ▸ hn)
  cases rule with
  | free => exact faultsOnly_pure 0
  | operator =>
    cases ho : Fields.get? fields "operator" with
    | none => simp [PriceRule.required, ho] at hreq
    | some operator =>
      rw [ho] at hop
      simp only [byRule, required, Value.field?_record, ho]
      exact (faultsOnly_pure operator).bind fun _ _ hy => by
        obtain ⟨-, rfl⟩ := yields_pure.mp hy
        exact settled_operator_faults hop
  | expression =>
    cases he : Fields.get? fields "expression" with
    | none => simp [PriceRule.required, he] at hreq
    | some inner =>
      simp only [byRule, required, Value.field?_record, he]
      exact (faultsOnly_pure inner).bind fun _ _ hy => by
        obtain ⟨-, rfl⟩ := yields_pure.mp hy
        exact h.part hv (by rw [hr]; rfl) he
  | argument => exact optional_faults fun _ => hpart rfl
  | declarations =>
    simp only [byRule, Value.field?_record]
    cases hd : Fields.get? fields "declarations" with
    | none => exact (h Value.wellFormed_nil).undeclared rfl
    | some declarations => exact h.part hv (by rw [hr]; rfl) hd
  | declarator =>
    refine initial_faults (hpart rfl) fun hl fault he => ?_
    have hk := hasKind_of_declarator hr
    refine ⟨[], _, ⟨_, rfl, rfl, ?_⟩, he⟩
    rw [Value.declared?, hk, hl]
    rfl
  | assignment =>
    refine (hpart rfl).bind fun _ _ _ => FaultsOnly.bind ?_ fun _ _ _ => faultsOnly_pure _
    refine assignedOperator_faults ?_
    rw [Value.field?_record]
    cases ho : Fields.get? fields "operator" with
    | none => rfl
    | some operator =>
      rw [ho] at hop
      exact hop
  | test => exact optional_faults fun _ => hpart rfl
  | testAndInit =>
    exact (optional_faults fun _ => hpart rfl).bind fun _ _ _ =>
      (optional_faults fun _ => hpart rfl).bind fun _ _ _ => faultsOnly_pure _
  | unpriced => exact unpriced_faults _

theorem usableKey_kind (h : v.WellFormed) : v.kind.usableKey = true := by
  unfold Value.kind
  cases v with
  | record fields =>
    have hs := Value.check_of_everywhere h.steady.kinds
    unfold Value.hasStringKind at hs
    rw [Value.field?_record]
    cases ht : Fields.get? fields "type" with
    | none => rfl
    | some kind =>
      rw [ht] at hs
      cases kind with
      | text _ | broken _ => rfl
      | _ => cases hs
  | _ => rfl

/-- A price of a well-formed tree faults only on a literal that it comes to. -/
theorem gammaAt_faults (levels : Nat) : FaultsOnLiterals (p.gammaAt levels) := by
  induction levels with
  | zero => exact fun v _ => faultsOnly_reject _
  | succ levels ih =>
    intro v hv
    cases v with
    | list items =>
      refine sumOf_faults fun item hm => ?_
      obtain ⟨i, hi⟩ := List.mem_iff_getElem?.mp hm
      have hc : (Value.list items).child? (.item i) = some item := hi
      exact (ih (hv.child? hc)).mono fun fault hu => .child hc hu
    | record fields =>
      rw [gammaAt_succ (by simp)]
      split
      · rename_i kind hk
        exact byRule_faults ih hv (by rw [PriceRule.ofValue, hk])
      · rw [if_pos (usableKey_kind hv)]
        exact unpriced_faults _
    | host object =>
      rw [gammaAt_succ (by simp)]
      cases object <;> exact unpriced_faults _
    | _ =>
      rw [gammaAt_succ (by simp)]
      exact unpriced_faults _

end Pricing

end ContractMeter
