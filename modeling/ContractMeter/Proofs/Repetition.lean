import ContractMeter.Proofs.Conservation
import ContractMeter.Proofs.Execution

/-!
# ContractMeter.Proofs.Repetition

Metering a tree that is metered already.

* `Ledger.Redoubles` — the same warnings and the same total, in twice as many charges.
* `Pricing.gammaPerIteration_unique` — what a pass through a loop costs at one depth it costs at
  any.
* `Instrumented.again` — a walk over the tree of another one redoubles what that one recorded.
* `MeteringCall.amountIn` — what the metering calls of a tree charge together.
* `passNumber`, `Instrumenter.Meters` — passes one after the other.
* `metering_again_doubles` — charges, bills and amounts of any number of passes.
-/

namespace ContractMeter

open Instrumenter (block prepend loopBody isUncharged)
open Metered

/-! ## Ledgers -/

/-- The second ledger has the warnings and the total of the first one, in twice as many charges. -/
structure Ledger.Redoubles (l l' : Ledger) : Prop where
  warnings : l'.warnings = l.warnings
  total : totalGamma l'.charges = totalGamma l.charges
  count : l'.charges.length = 2 * l.charges.length

section Redoubles

variable {a a' b b' : Ledger}

theorem Ledger.redoubles_empty : Ledger.empty.Redoubles .empty :=
  ⟨rfl, rfl, rfl⟩

theorem Ledger.Redoubles.append (ha : a.Redoubles a') (hb : b.Redoubles b') :
    (a ++ b).Redoubles (a' ++ b') where
  warnings := by rw [warnings_append, warnings_append, ha.warnings, hb.warnings]
  total := by
    rw [charges_append, charges_append, totalGamma_append, totalGamma_append, ha.total, hb.total]
  count := by
    rw [charges_append, charges_append, List.length_append, List.length_append, ha.count, hb.count]
    omega

/-- A price and its charge, with a charge of nothing in front the second time. -/
theorem Ledger.Redoubles.charge {price : Ledger} {entry entry' free : Charge}
    (hp : price.charges = []) (he : entry'.gamma = entry.gamma) (hf : free.gamma = 0) :
    (price ++ ⟨[], [entry]⟩).Redoubles (⟨[], [free]⟩ ++ (price ++ ⟨[], [entry']⟩)) where
  warnings := rfl
  total := by simp [hp, totalGamma, he, hf]
  count := by simp [hp]

/-- It does not matter where a charge stands. -/
theorem Ledger.redoubles_swap {l : Ledger} {charge : Charge} :
    l.Redoubles (⟨[], [charge]⟩ ++ (a ++ b)) ↔ l.Redoubles (a ++ (⟨[], [charge]⟩ ++ b)) := by
  have ht : totalGamma ([charge] ++ (a.charges ++ b.charges)) =
      totalGamma (a.charges ++ ([charge] ++ b.charges)) := by
    simp only [totalGamma_append]
    omega
  have hc : ([charge] ++ (a.charges ++ b.charges)).length =
      (a.charges ++ ([charge] ++ b.charges)).length := by
    simp only [List.length_append]
    omega
  constructor
  · intro h
    exact ⟨h.warnings, ht.symm.trans h.total, hc.symm.trans h.count⟩
  · intro h
    exact ⟨h.warnings, ht.trans h.total, hc.trans h.count⟩

end Redoubles

/-! ## Prices -/

theorem Metered.Yields.unique {α : Type} {x : Metered α} {l l' : Ledger} {a a' : α}
    (h : x.Yields l a) (h' : x.Yields l' a') : l' = l ∧ a' = a := by
  have he : (⟨l, .ok a⟩ : Metered α) = ⟨l', .ok a'⟩ := h.symm.trans h'
  cases he
  exact ⟨rfl, rfl⟩

namespace Pricing

variable {p : Pricing} {l l' : Ledger} {g g' : Nat}

theorem gammaPerIterationAt_mono {n n' : Nat} (h : n ≤ n') :
    Extends (p.gammaPerIterationAt n) (p.gammaPerIterationAt n') := by
  intro v l g hy
  cases n with
  | zero => simp [gammaPerIterationAt, tooDeep] at hy
  | succ n =>
    obtain ⟨n', rfl⟩ : ∃ k, n' = k + 1 := ⟨n' - 1, by omega⟩
    have hopt := optional_extends (gammaAt_mono (p := p) (Nat.le_of_succ_le_succ h))
    cases v with
    | record fields =>
      simp only [gammaPerIterationAt, yields_bind] at hy ⊢
      obtain ⟨l₁, test, _, h₁, ⟨l₂, update, l₃, h₂, h₃, rfl⟩, rfl⟩ := hy
      exact ⟨l₁, test, _, hopt h₁, ⟨l₂, update, l₃, hopt h₂, h₃, rfl⟩, rfl⟩
    | _ => exact absurd hy not_yields_fault

/-- The depth of a loop decides whether its price is found, and not which one. -/
theorem gammaPerIteration_unique {depth depth' : Int} {loop : Value}
    (h : (p.gammaPerIteration depth loop).Yields l g)
    (h' : (p.gammaPerIteration depth' loop).Yields l' g') : l' = l ∧ g' = g := by
  have hmore := gammaPerIterationAt_mono (p := p) (Nat.le_max_left (levelsLeft p.maxDepth depth)
    (levelsLeft p.maxDepth depth'))
  have hmore' := gammaPerIterationAt_mono (p := p) (Nat.le_max_right (levelsLeft p.maxDepth depth)
    (levelsLeft p.maxDepth depth'))
  exact (hmore h).unique (hmore' h')

/-- A charge costs nothing and leaves no warning, however strict the pricing. -/
theorem gammaFor_charge {m : Instrumenter} {gamma : Nat} {depth : Int}
    (h : (p.gammaFor depth (m.charge gamma)).Yields l g) : l = .empty ∧ g = 0 := by
  have hcall : (p.gammaAt (levelsLeft p.maxDepth depth + 2) (m.charge gamma)) = .pure 0 := rfl
  have hmore := gammaAt_mono (Nat.le_add_right (levelsLeft p.maxDepth depth) 2) h
  rw [hcall, yields_pure] at hmore
  exact hmore

end Pricing

/-! ## Walks -/

section Again

variable {m : Instrumenter} {start start' : Int}

theorem Instrumented.of_leaf {v v' : Value} {l : Ledger} (h : Instrumented m start v v' l)
    (hc : v.container = .leaf) : v' = v ∧ l = .empty := by
  cases v with
  | record fields =>
    obtain ⟨_, rfl, rfl, rfl⟩ := h.fields hc
    exact ⟨rfl, rfl⟩
  | _ =>
    cases h with
    | leaf _ => exact ⟨rfl, rfl⟩

/-- What a walk makes of a loop, with its charge for a pass. -/
theorem Instrumented.of_loop {fields : Fields} {v' : Value} {l : Ledger}
    (h : Instrumented m start (.record fields) v' l)
    (hc : (Value.record fields).container = .loop) :
    ∃ (depth : Int) (gamma : Nat) (entry : Charge) (body : Value) (l₁ l₂ : Ledger),
      (m.pricing.gammaPerIteration depth (.record fields)).Yields l₁ gamma ∧
      entry.gamma = gamma ∧ InstrumentedPart m start (loopBody fields) body l₂ ∧
      l = l₁ ++ (⟨[], [entry]⟩ ++ l₂) := by
  cases h with
  | loop _ _ _ hp he hb => exact ⟨_, _, _, _, _, _, hp, Charge.gamma_of he, hb, rfl⟩
  | leaf hc' | sequence hc' _ _ | body hc' _ | statementBody hc' _ | value hc' _
  | branch hc' _ _ | attempt hc' _ _ _ | switch hc' _ _ =>
    rw [hc] at hc'
    cases hc'

/-- A block's statements are those of its list. -/
theorem InstrumentedPart.of_block {fields : Fields} {items : List Value} {v' : Value} {l : Ledger}
    (hk : (Value.record fields).hasKind "BlockStatement" = true)
    (hb : Fields.get? fields "body" = some (.list items))
    (h : InstrumentedPart m start (.record fields) v' l) :
    ∃ items', InstrumentedList m start items items' l := by
  cases h with
  | block _ hb' h =>
    rw [hb] at hb'
    cases hb'
    exact ⟨_, h⟩
  | bare _ hk' _ =>
    rw [hk] at hk'
    cases hk'

/-- An instrumented part is a block with a list of statements. -/
theorem InstrumentedPart.isBlock {part part' : Value} {l : Ledger} (hn : part ≠ .null)
    (h : InstrumentedPart m start part part' l) :
    ∃ fields items, part' = .record fields ∧
      (Value.record fields).hasKind "BlockStatement" = true ∧
      Fields.get? fields "body" = some (.list items) := by
  cases h with
  | null => contradiction
  | block hk _ _ =>
    refine ⟨_, _, rfl, ?_, Fields.get?_set_self ..⟩
    rw [Value.hasKind_set (by decide : "body" ≠ "type")]
    exact hk
  | bare _ _ _ => exact ⟨_, _, rfl, rfl, rfl⟩

/-- A walk charges a charge with nothing, and goes on behind it. -/
theorem InstrumentedList.past_charge {gamma : Nat} {items items' : List Value} {l : Ledger}
    (h : InstrumentedList m start (m.charge gamma :: items) items' l) :
    ∃ free rest l', free.gamma = 0 ∧ InstrumentedList m start items rest l' ∧
      l = ⟨[], [free]⟩ ++ l' := by
  cases h with
  | uncharged h hu _ =>
    rw [h.isUncharged_eq, Instrumenter.isUncharged_charge] at hu
    cases hu
  | charged h _ hp he hs =>
    obtain ⟨rfl, rfl⟩ := h.of_leaf rfl
    obtain ⟨rfl, rfl⟩ := Pricing.gammaFor_charge hp
    exact ⟨_, _, _, Charge.gamma_of he, hs, rfl⟩

theorem InstrumentedPart.past_charge {part body v' : Value} {gamma : Nat} {l l' : Ledger}
    (hn : part ≠ .null) (hp : InstrumentedPart m start part body l)
    (h : InstrumentedPart m start' (prepend (m.charge gamma) body) v' l') :
    ∃ free rest l₂, free.gamma = 0 ∧ InstrumentedPart m start' body rest l₂ ∧
      l' = ⟨[], [free]⟩ ++ l₂ := by
  obtain ⟨fields, items, rfl, hk, hb⟩ := hp.isBlock hn
  have hprepend : prepend (m.charge gamma) (.record fields) =
      .record (Fields.set fields "body" (.list (m.charge gamma :: items))) := by
    rw [Instrumenter.prepend_record, Fields.get_of_get? hb, Value.items]
  rw [hprepend] at h
  obtain ⟨_, hl⟩ := h.of_block ((Value.hasKind_set (by decide)).trans hk)
    (Fields.get?_set_self ..)
  obtain ⟨free, rest, l₂, hfree, hrest, rfl⟩ := hl.past_charge
  have he : ((Fields.get? fields "body").getD (.list [])).elements = .ok items := by
    rw [hb]
    rfl
  exact ⟨free, _, l₂, hfree, .block hk he hrest, rfl⟩

/-- The body that a metered loop runs is the one that was put into it. -/
theorem InstrumentedPart.loopBody_set_prepend {part body : Value} {charge : Value}
    {fields : Fields} {l : Ledger} (hn : part ≠ .null) (h : InstrumentedPart m start part body l) :
    loopBody (Fields.set fields "body" (prepend charge body)) = prepend charge body := by
  obtain ⟨inner, _, rfl, -⟩ := h.isBlock hn
  have ht : (prepend charge (.record inner)).truthy = true := by
    rw [Instrumenter.prepend_record]
    have hb := Fields.get?_set_self inner "body" (.list (charge :: (Fields.get inner "body").items))
    rw [← Value.child?_field] at hb
    exact Value.truthy_of_child? hb
  unfold Instrumenter.loopBody
  dsimp only
  rw [Fields.get_set, if_pos rfl, if_pos ht]

mutual

/-- A second walk warns of the same, and charges for the same in twice as many charges: it goes the
way of the first one, where it prices the same statements and charges the first one's charges with
nothing. -/
theorem Instrumented.again {v v' v'' : Value} {l l' : Ledger} :
    Instrumented m start v v' l → Instrumented m start' v' v'' l' → l.Redoubles l'
  | .leaf hc, h' => by
    obtain ⟨-, rfl⟩ := h'.of_leaf hc
    exact Ledger.redoubles_empty
  | .sequence hc _ h, h' => by
    obtain ⟨_, -, _, _, he, hl, -⟩ := h'.fields ((Value.container_set (by decide)).trans hc)
    rw [Fields.get?_set_self] at he
    cases he
    exact h.again hl
  | .body hc h, h' => by
    obtain ⟨_, -, _, hb, -⟩ := h'.fields ((Value.container_set (by decide)).trans hc)
    rw [Fields.get_set, if_pos rfl] at hb
    exact h.again hb
  | .loop hk hc hd hp he h, h' => by
    have hloop := (Value.container_of_kind hk).trans hc
    obtain ⟨_, _, _, _, _, _, hp', he', hb, rfl⟩ :=
      h'.of_loop ((Value.container_set (by decide)).trans hloop)
    rw [(Instrumented.loop hk hc hd hp he h).gammaPerIteration_eq] at hp'
    obtain ⟨rfl, rfl⟩ := Pricing.gammaPerIteration_unique hp hp'
    have hn := Instrumenter.loopBody_ne_null
    rw [h.loopBody_set_prepend (hn _)] at hb
    obtain ⟨free, _, _, hfree, hrest, rfl⟩ := h.past_charge (hn _) hb
    have hcharge := Ledger.Redoubles.charge (Pricing.gammaPerIteration_charges hp)
      (he'.trans (Charge.gamma_of he).symm) hfree
    -- the charge in front of the body stands behind that of the pass
    rw [← Ledger.append_assoc, ← Ledger.append_assoc, ← Ledger.redoubles_swap,
      ← Ledger.append_assoc ⟨[], [free]⟩]
    exact hcharge.append (h.again hrest)
  | .statementBody hc h, h' => by
    obtain ⟨_, -, _, hb, -⟩ := h'.fields ((Value.container_set (by decide)).trans hc)
    rw [Fields.get_set, if_pos rfl] at hb
    exact h.again hb
  | .value hc h, h' => by
    obtain ⟨_, -, _, hb, -⟩ := h'.fields ((Value.container_set (by decide)).trans hc)
    rw [Fields.get_set, if_pos rfl] at hb
    exact h.again hb
  | .branch hc h₁ h₂, h' => by
    obtain ⟨_, -, _, _, _, _, hb₁, hb₂, -, rfl⟩ := h'.fields
      ((Value.container_set (by decide)).trans ((Value.container_set (by decide)).trans hc))
    rw [Fields.get_set, if_neg (by decide), Fields.get_set, if_pos rfl] at hb₁
    rw [Fields.get_set, if_pos rfl] at hb₂
    exact (h₁.again hb₁).append (h₂.again hb₂)
  | .attempt hc h₁ h₂ h₃, h' => by
    obtain ⟨_, -, _, _, _, _, _, _, hb₁, hb₂, hb₃, -, rfl⟩ := h'.fields
      ((Value.container_set (by decide)).trans ((Value.container_set (by decide)).trans
        ((Value.container_set (by decide)).trans hc)))
    rw [Fields.get_set, if_neg (by decide), Fields.get_set, if_neg (by decide), Fields.get_set,
      if_pos rfl] at hb₁
    rw [Fields.get_set, if_neg (by decide), Fields.get_set, if_pos rfl] at hb₂
    rw [Fields.get_set, if_pos rfl] at hb₃
    exact (h₁.again hb₁).append ((h₂.again hb₂).append (h₃.again hb₃))
  | .switch hc _ h, h' => by
    obtain ⟨_, -, _, _, he, hcs, -⟩ := h'.fields ((Value.container_set (by decide)).trans hc)
    rw [Fields.get?_set_self] at he
    cases he
    exact h.again hcs

theorem InstrumentedPart.again {v v' v'' : Value} {l l' : Ledger} :
    InstrumentedPart m start v v' l → InstrumentedPart m start' v' v'' l' → l.Redoubles l'
  | .null, h' => by
    cases h' with
    | null => exact Ledger.redoubles_empty
    | bare hn _ _ => exact absurd rfl hn
  | .block hk _ h, h' => by
    obtain ⟨_, hl⟩ := h'.of_block ((Value.hasKind_set (by decide)).trans hk)
      (Fields.get?_set_self ..)
    exact h.again hl
  | .bare _ _ h, h' => by
    obtain ⟨_, hl⟩ := InstrumentedPart.of_block rfl rfl h'
    exact h.again hl

theorem InstrumentedList.again {items items' items'' : List Value} {l l' : Ledger} :
    InstrumentedList m start items items' l → InstrumentedList m start' items' items'' l' →
      l.Redoubles l'
  | .nil, h' => by
    cases h' with
    | nil => exact Ledger.redoubles_empty
  | .uncharged h hu hs, h' => by
    cases h' with
    | uncharged h₂ _ hs₂ => exact (h.again h₂).append (hs.again hs₂)
    | charged h₂ hu₂ _ _ _ =>
      rw [h₂.isUncharged_eq, hu] at hu₂
      cases hu₂
  | .charged h hu hp he hs, h' => by
    obtain ⟨free, _, _, hfree, hrest, rfl⟩ := h'.past_charge
    cases hrest with
    | uncharged h₂ hu₂ _ =>
      rw [h₂.isUncharged_eq, hu] at hu₂
      cases hu₂
    | charged h₂ _ hp₂ he₂ hs₂ =>
      rw [h₂.gammaFor_eq] at hp₂
      obtain ⟨rfl, rfl⟩ := hp.unique hp₂
      have hentry := (Charge.gamma_of he₂).trans (Charge.gamma_of he).symm
      have hcharge := Ledger.Redoubles.charge (Pricing.gammaFor_charges hp) hentry hfree
      rw [Ledger.redoubles_swap, ← Ledger.append_assoc ⟨[], [free]⟩]
      exact (h.again h₂).append (hcharge.append (hs.again hs₂))

theorem InstrumentedCases.again {cases cases' cases'' : List Value} {l l' : Ledger} :
    InstrumentedCases m start cases cases' l → InstrumentedCases m start' cases' cases'' l' →
      l.Redoubles l'
  | .nil, h' => by
    cases h' with
    | nil => exact Ledger.redoubles_empty
  | .cons _ h hs, h' => by
    cases h' with
    | cons he h₂ hs₂ =>
      rw [Fields.get?_set_self] at he
      cases he
      exact (h.again h₂).append (hs.again hs₂)

end

end Again

/-! ## Amounts -/

namespace MeteringCall

/-- The amount that a record charges, if it is a metering call. -/
def amountOf (call : MeteringCall) (fields : Fields) : Int :=
  if call.recognizesRecord fields then Execution.Event.amount (.record fields) else 0

/-- What the metering calls anywhere in a tree charge together. -/
def amountIn (call : MeteringCall) (v : Value) : Int :=
  v.weigh call.amountOf

end MeteringCall

section Amounts

variable {m : Instrumenter}

theorem Instrumenter.amountIn_charge (gamma : Nat) : m.call.amountIn (m.charge gamma) = gamma := by
  simp [MeteringCall.amountIn, Instrumenter.charge, MeteringCall.statement, MeteringCall.callee,
    MeteringCall.identifier, MeteringCall.amountLiteral, Value.weigh, Value.weighFields,
    Value.weighItems, MeteringCall.amountOf, MeteringCall.recognizesRecord,
    MeteringCall.recognizes, MeteringCall.isNamed, Value.hasKind, Value.kind, Value.isNode,
    Fields.get, Fields.get?_cons, Value.isText, Value.truthy, Execution.Event.amount]

/-- Metering keeps what the metering calls of a tree charge, and every charge adds its amount. -/
theorem Instrumenter.weighs_amountOf : m.Weighs m.call.amountOf id where
  set fields key v hk := by
    have ht : key ≠ "type" := fun e => absurd (e ▸ hk) (by decide)
    have he : key ≠ "expression" := fun e => absurd (e ▸ hk) (by decide)
    have ha : Execution.Event.amount (.record (Fields.set fields key v)) =
        Execution.Event.amount (.record fields) := by
      simp only [Execution.Event.amount, Value.field_record, Fields.get_set, if_neg he.symm]
    rw [MeteringCall.amountOf, MeteringCall.amountOf, MeteringCall.recognizesRecord_set ht he, ha]
  nil := by
    rw [MeteringCall.amountOf, tallies_recognizesRecord.nil, if_neg Bool.false_ne_true]
  block statements := by
    rw [MeteringCall.amountOf, tallies_recognizesRecord.block, if_neg Bool.false_ne_true]
  charge := amountIn_charge

end Amounts

/-! ## Passes -/

/-- A pass over a tree, after so many before it. Each has a ledger of its own, and none comes after
one that fails. -/
def passNumber (pass : Value → Metered Value) (tree : Value) : Nat → Metered Value
  | 0 => .pure tree
  | count + 1 =>
    match (passNumber pass tree count).outcome with
    | .ok tree => pass tree
    | .error failure => .fail failure

/-- A pass that redoubles what the pass before recorded, and puts what it records into the tree. -/
structure Instrumenter.Meters (m : Instrumenter) (pass : Value → Metered Value) : Prop where
  again : ∀ {v v' v'' : Value} {l l' : Ledger}, (pass v).Yields l v' → (pass v').Yields l' v'' →
    l.Redoubles l'
  listShaped : ∀ {v v' : Value} {l : Ledger}, v.listShaped = true → (pass v).Yields l v' →
    v'.listShaped = true
  amount : ∀ {v v' : Value} {l : Ledger}, v.listShaped = true → (pass v).Yields l v' →
    m.call.amountIn v' = m.call.amountIn v + totalGamma l.charges

section Meters

variable {m : Instrumenter}

theorem Instrumenter.meters_node (depth : Int) : m.Meters (m.node depth) where
  again h h' := (node_sound h).again (node_sound h')
  listShaped hl h := (node_sound h).listShaped hl
  amount hl h := (node_sound h).weigh_eq weighs_amountOf hl

theorem Instrumenter.statements_of_not_list {v : Value} (h : ∀ items, v ≠ .list items) :
    m.statements v = m.node 0 v := by
  cases v with
  | list items => exact absurd rfl (h items)
  | _ => rfl

theorem Instrumented.not_list {start : Int} {v v' : Value} {l : Ledger}
    (h : Instrumented m start v v' l) (hv : ∀ items, v ≠ .list items) :
    ∀ items, v' ≠ .list items := by
  rcases h.eq_or_record with rfl | ⟨_, _, _, rfl, _⟩
  · exact hv
  · exact fun _ e => nomatch e

/-- A list of statements stays one, and any other tree is a node. -/
theorem Instrumenter.meters_statements : m.Meters m.statements where
  again := by
    intro v v' v'' l l' h h'
    by_cases hv : ∃ items, v = .list items
    · obtain ⟨items, rfl⟩ := hv
      obtain ⟨items', rfl, hs⟩ := statements_sound h
      obtain ⟨items'', rfl, hs'⟩ := statements_sound h'
      exact hs.again hs'
    · have hv : ∀ items, v ≠ .list items := fun items e => hv ⟨items, e⟩
      rw [statements_of_not_list hv] at h
      rw [statements_of_not_list ((node_sound h).not_list hv)] at h'
      exact (node_sound h).again (node_sound h')
  listShaped := by
    intro v v' l hl h
    cases v with
    | list items =>
      obtain ⟨items', rfl, hs⟩ := statements_sound h
      exact hs.listShaped hl
    | _ => exact (meters_node 0).listShaped hl h
  amount := by
    intro v v' l hl h
    cases v with
    | list items =>
      obtain ⟨items', rfl, hs⟩ := statements_sound h
      exact hs.weigh_eq weighs_amountOf hl
    | _ => exact (meters_node 0).amount hl h

variable {pass : Value → Metered Value} {tree out : Value} {j k : Nat}

theorem passNumber_succ (h : (passNumber pass tree k).outcome = .ok out) :
    passNumber pass tree (k + 1) = pass out := by
  rw [passNumber, h]

theorem passNumber_of_succ (h : (passNumber pass tree (k + 1)).outcome = .ok out) :
    ∃ before, (passNumber pass tree k).outcome = .ok before := by
  rw [passNumber] at h
  cases hb : (passNumber pass tree k).outcome with
  | ok before => exact ⟨before, rfl⟩
  | error failure =>
    rw [hb] at h
    cases h

/-- If a pass succeeds, so did all before it. -/
theorem passNumber_of_le (hj : j ≤ k) (h : (passNumber pass tree k).outcome = .ok out) :
    ∃ before, (passNumber pass tree j).outcome = .ok before := by
  induction k generalizing out with
  | zero =>
    obtain rfl : j = 0 := by omega
    exact ⟨out, h⟩
  | succ k ih =>
    by_cases he : j = k + 1
    · exact ⟨out, he ▸ h⟩
    · obtain ⟨before, hb⟩ := passNumber_of_succ h
      exact ih (by omega) hb

namespace Instrumenter.Meters

variable (hp : m.Meters pass)

include hp

theorem redoubles (h : (passNumber pass tree (k + 2)).outcome = .ok out) :
    (passNumber pass tree (k + 1)).ledger.Redoubles (passNumber pass tree (k + 2)).ledger := by
  obtain ⟨before, hb⟩ := passNumber_of_succ h
  obtain ⟨first, hf⟩ := passNumber_of_succ hb
  have hfirst := Metered.outcome_ok_iff.mp hb
  have hsecond := Metered.outcome_ok_iff.mp h
  rw [passNumber_succ hb] at hsecond ⊢
  rw [passNumber_succ hf] at hfirst ⊢
  exact hp.again hfirst hsecond

/-- Every pass has the total and the warnings of the first. -/
theorem same_bill (h : (passNumber pass tree (k + 1)).outcome = .ok out) :
    totalGamma (passNumber pass tree (k + 1)).ledger.charges =
        totalGamma (passNumber pass tree 1).ledger.charges ∧
      (passNumber pass tree (k + 1)).ledger.warnings = (passNumber pass tree 1).ledger.warnings := by
  induction k generalizing out with
  | zero => exact ⟨rfl, rfl⟩
  | succ k ih =>
    obtain ⟨before, hb⟩ := passNumber_of_succ h
    obtain ⟨htotal, hwarnings⟩ := ih hb
    have hr := hp.redoubles h
    exact ⟨hr.total.trans htotal, hr.warnings.trans hwarnings⟩

/-- After each pass the tree charges the total of the first once more. -/
theorem amount_passNumber (hl : tree.listShaped = true)
    (h : (passNumber pass tree k).outcome = .ok out) :
    out.listShaped = true ∧ m.call.amountIn out =
      m.call.amountIn tree + k * totalGamma (passNumber pass tree 1).ledger.charges := by
  induction k generalizing out with
  | zero =>
    cases h
    exact ⟨hl, by omega⟩
  | succ k ih =>
    obtain ⟨before, hb⟩ := passNumber_of_succ h
    obtain ⟨hlb, hab⟩ := ih hb
    have htotal := (hp.same_bill h).1
    rw [passNumber_succ hb] at h htotal
    have hy := Metered.outcome_ok_iff.mp h
    have ha := hp.amount hlb hy
    refine ⟨hp.listShaped hlb hy, ?_⟩
    rw [ha, hab, htotal, Int.natCast_succ, Int.add_mul, Int.one_mul, Int.add_assoc]

end Instrumenter.Meters

end Meters

/-- **Metering again doubles the charges and keeps the bill.** As long as passes succeed, each
places twice as many charges as the one before it, and has the total and the warnings of the
first. After so many passes over a tree whose statement lists are lists, its metering calls charge
that total so many times more than at the start. -/
theorem metering_again_doubles (m : Instrumenter) {pass : Value → Metered Value}
    (hpass : pass = m.statements ∨ ∃ depth, pass = m.node depth) {tree out : Value} {k : Nat}
    (h : (passNumber pass tree (k + 1)).outcome = .ok out) :
    (∀ j, 1 ≤ j → j ≤ k → (passNumber pass tree (j + 1)).ledger.charges.length =
      2 * (passNumber pass tree j).ledger.charges.length) ∧
    (∀ j, 1 ≤ j → j ≤ k + 1 →
      totalGamma (passNumber pass tree j).ledger.charges =
          totalGamma (passNumber pass tree 1).ledger.charges ∧
        (passNumber pass tree j).ledger.warnings = (passNumber pass tree 1).ledger.warnings) ∧
    (tree.listShaped = true → ∀ j, j ≤ k + 1 → ∃ after,
      (passNumber pass tree j).outcome = .ok after ∧
      m.call.amountIn after =
        m.call.amountIn tree + j * totalGamma (passNumber pass tree 1).ledger.charges) := by
  have hp : m.Meters pass := by
    rcases hpass with rfl | ⟨depth, rfl⟩
    · exact Instrumenter.meters_statements
    · exact Instrumenter.meters_node depth
  refine ⟨fun j hj hk => ?_, fun j hj hk => ?_, fun hl j hk => ?_⟩
  · obtain ⟨j, rfl⟩ : ∃ i, j = i + 1 := ⟨j - 1, by omega⟩
    obtain ⟨after, ha⟩ := passNumber_of_le (by omega : j + 2 ≤ k + 1) h
    exact (hp.redoubles ha).count
  · obtain ⟨j, rfl⟩ : ∃ i, j = i + 1 := ⟨j - 1, by omega⟩
    obtain ⟨after, ha⟩ := passNumber_of_le hk h
    exact hp.same_bill ha
  · obtain ⟨after, ha⟩ := passNumber_of_le hk h
    exact ⟨after, ha, (hp.amount_passNumber hl ha).2⟩

/-- Three passes over `while (a < b) a++;` place three, six and twelve charges. -/
theorem metering_again_doubles_of_loop :
    let tree := Sample.program [Sample.whileLess Sample.increment]
    let pass := passNumber (Instrumenter.sample.node 0) tree
    (pass 3).ledger.charges.length = 12 ∧
      (pass 3).ledger.charges.length = 2 * (pass 2).ledger.charges.length ∧
      totalGamma (pass 3).ledger.charges = totalGamma (pass 1).ledger.charges ∧
      ∃ after, (pass 3).outcome = .ok after ∧ Instrumenter.sample.call.amountIn after =
        Instrumenter.sample.call.amountIn tree + 3 * totalGamma (pass 1).ledger.charges := by
  intro tree pass
  obtain ⟨hcount, hbill, hamount⟩ := @metering_again_doubles .sample (Instrumenter.sample.node 0)
    (.inr ⟨0, rfl⟩) tree _ 2 rfl
  exact ⟨rfl, hcount 2 (by decide) (by decide), (hbill 3 (by decide) (by decide)).1,
    hamount (by decide) 3 (by decide)⟩

end ContractMeter
