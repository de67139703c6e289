import ContractMeter.Proofs.Shape

/-!
# ContractMeter.Proofs.Weight

Sums over the records of a tree, and what metering adds to them.

* `Value.weigh` — the sum of a weight over all records of a tree.
* `Ledger.weigh` — the sum over the charges of a ledger of a weight for their amounts.
* `Instrumenter.Weighs` — weights that metering affects by its charges alone.
* `Instrumented.weigh_eq` — the tree gains what the charges weigh.
-/

namespace ContractMeter

open Instrumenter (block prepend loopBody prepend_block)

namespace Value

mutual

/-- The sum of the weights of all records anywhere in a tree. -/
def weigh (weight : Fields → Int) : Value → Int
  | .list items => weighItems weight items
  | .record fields => weight fields + weighFields weight fields
  | _ => 0

def weighItems (weight : Fields → Int) : List Value → Int
  | [] => 0
  | item :: rest => weigh weight item + weighItems weight rest

def weighFields (weight : Fields → Int) : List (String × Value) → Int
  | [] => 0
  | (_, v) :: rest => weigh weight v + weighFields weight rest

end

section Weigh

variable {weight : Fields → Int}

theorem weigh_list (items : List Value) : (list items).weigh weight = weighItems weight items := by
  rw [weigh]

@[simp]
theorem weigh_nil : (list []).weigh weight = 0 := by
  rw [weigh_list, weighItems]

theorem weigh_cons {item : Value} {rest : List Value} :
    (list (item :: rest)).weigh weight = item.weigh weight + (list rest).weigh weight := by
  rw [weigh_list, weigh_list, weighItems]

theorem weighFields_set (fields : Fields) (key : String) (v : Value) :
    weighFields weight (Fields.set fields key v) + (Fields.get fields key).weigh weight =
      weighFields weight fields + v.weigh weight := by
  induction fields with
  | nil => simp [Fields.set, Fields.get, Fields.get?, weighFields, weigh]
  | cons field rest ih =>
    obtain ⟨k, w⟩ := field
    by_cases hk : k = key
    · subst hk
      simp only [Fields.set, if_true, Fields.get, Fields.get?_cons, Option.getD_some, weighFields]
      omega
    · simp only [Fields.set, if_neg hk, Fields.get, Fields.get?_cons, if_neg (Ne.symm hk),
        weighFields] at ih ⊢
      omega

theorem weigh_of_elements {fields : Fields} {key : String} {items : List Value}
    (hf : isListOrAbsent (Fields.get? fields key) = true)
    (h : ((Fields.get? fields key).getD (.list [])).elements = .ok items) :
    (Fields.get fields key).weigh weight = (list items).weigh weight := by
  rcases elements_of_isListOrAbsent hf h with ⟨hn, rfl⟩ | hs
  · simp [Fields.get, hn, weigh, weighItems]
  · rw [Fields.get_of_get? hs]

end Weigh

end Value

/-- The sum over the charges of a ledger of what their amounts weigh. -/
def Ledger.weigh (each : Int → Int) (l : Ledger) : Int :=
  (l.charges.map fun c => each c.gamma).foldr (· + ·) 0

section LedgerWeigh

variable {each : Int → Int}

theorem Ledger.weigh_append (a b : Ledger) : (a ++ b).weigh each = a.weigh each + b.weigh each := by
  unfold weigh
  rw [charges_append, List.map_append]
  exact List.sum_append_int

theorem Ledger.weigh_of_charges (each : Int → Int) {l : Ledger} (h : l.charges = []) :
    l.weigh each = 0 := by
  simp [weigh, h]

theorem Charge.gamma_of {s : Value} {gamma : Int} {label : Option String} {entry : Charge}
    (h : Charge.of s gamma label = .ok entry) : entry.gamma = gamma := by
  unfold Charge.of at h
  split at h
  · cases h
  · split at h
    · cases h
      rfl
    · cases h
      rfl

theorem Ledger.weigh_entry {s : Value} {gamma : Int} {label : Option String} {entry : Charge}
    (h : Charge.of s gamma label = .ok entry) :
    Ledger.weigh each ⟨[], [entry]⟩ = each gamma := by
  simp [weigh, Charge.gamma_of h]

end LedgerWeigh

/-! ## What metering adds -/

/-- A weight that fields of statements have no part in and that blocks have none of, and what a
charge of an amount holds of it. -/
structure Instrumenter.Weighs (m : Instrumenter) (weight : Fields → Int) (each : Int → Int) :
    Prop where
  set : ∀ (fields : Fields) (key : String) (v : Value), key ∈ statementFields →
    weight (Fields.set fields key v) = weight fields
  nil : weight [] = 0
  block : ∀ statements, weight [("type", .text "BlockStatement"), ("body", statements)] = 0
  charge : ∀ gamma : Nat, (m.charge gamma).weigh weight = each gamma

section Weighs

variable {m : Instrumenter} {weight : Fields → Int} {each : Int → Int} {start n : Int}
  {fields : Fields} {key : String} {v : Value}

theorem Instrumenter.Weighs.weigh_set (hw : m.Weighs weight each) (hk : key ∈ statementFields)
    (h : v.weigh weight = (Fields.get fields key).weigh weight + n) :
    (Value.record (Fields.set fields key v)).weigh weight =
      (Value.record fields).weigh weight + n := by
  have hs := @Value.weighFields_set weight fields key v
  rw [Value.weigh, Value.weigh, hw.set fields key v hk]
  omega

theorem Instrumenter.Weighs.weigh_of_not_truthy (hw : m.Weighs weight each)
    (h : v.truthy = false) : v.weigh weight = 0 := by
  cases v with
  | list items =>
    cases items with
    | nil => exact Value.weigh_nil
    | cons item rest => cases h
  | record fields =>
    cases fields with
    | nil => simp [Value.weigh, Value.weighFields, hw.nil]
    | cons field rest => cases h
  | _ => simp [Value.weigh]

theorem Instrumenter.Weighs.weigh_block (hw : m.Weighs weight each) (items : List Value) :
    (Instrumenter.block (Value.list items)).weigh weight = (Value.list items).weigh weight := by
  simp [Instrumenter.block, Value.weigh, Value.weighFields, hw.block]

theorem Instrumenter.Weighs.weigh_loopBody (hw : m.Weighs weight each) (fields : Fields) :
    (loopBody fields).weigh weight = (Fields.get fields "body").weigh weight := by
  unfold Instrumenter.loopBody
  dsimp only
  split
  · rfl
  · rename_i h
    rw [hw.weigh_block, Value.weigh_nil, hw.weigh_of_not_truthy (by simpa using h)]

mutual

/-- Metering adds to the weight of a tree what each of its charges holds. -/
theorem Instrumented.weigh_eq (hw : m.Weighs weight each) {v v' : Value} {l : Ledger} :
    Instrumented m start v v' l → v.listShaped = true →
      v'.weigh weight = v.weigh weight + l.weigh each
  | .leaf _, _ => (Int.add_zero _).symm
  | .sequence hc hb h, hv => by
    have hf := Value.isListOrAbsent_body hv hc
    refine hw.weigh_set (by decide) ?_
    rw [Value.weigh_of_elements hf hb]
    exact h.weigh_eq hw (Value.listShaped_of_elements hv hf hb)
  | .body _ h, hv => hw.weigh_set (by decide) (h.weigh_eq hw (Value.listShaped_get hv "body"))
  | .loop _ _ _ hp he h, hv => by
    have hg := Ledger.weigh_of_charges each (Pricing.gammaPerIteration_charges hp)
    have ⟨hb, hpass⟩ := h.weigh_eq hw (Value.listShaped_loopBody hv)
    refine hw.weigh_set (by decide) ?_
    rw [hpass (Instrumenter.loopBody_ne_null _), hb, hw.weigh_loopBody, Ledger.weigh_append,
      Ledger.weigh_append, hg, Ledger.weigh_entry he]
    omega
  | .statementBody _ h, hv =>
    hw.weigh_set (by decide) (h.weigh_eq hw (Value.listShaped_get hv "body")).1
  | .value _ h, hv => hw.weigh_set (by decide) (h.weigh_eq hw (Value.listShaped_get hv "value"))
  | @Instrumented.branch _ _ fields consequent alternate l₁ l₂ _ h₁ h₂, hv => by
    have e₁ := (h₁.weigh_eq hw (Value.listShaped_get hv "consequent")).1
    -- the alternate is put where the new consequent already stands
    have e₂ : alternate.weigh weight =
        (Fields.get (Fields.set fields "consequent" consequent) "alternate").weigh weight +
          l₂.weigh each := by
      rw [Fields.get_set, if_neg (by decide)]
      exact (h₂.weigh_eq hw (Value.listShaped_get hv "alternate")).1
    rw [hw.weigh_set (by decide) e₂, hw.weigh_set (by decide) e₁, Ledger.weigh_append]
    omega
  | @Instrumented.attempt _ _ fields block handler finalizer l₁ l₂ l₃ _ h₁ h₂ h₃, hv => by
    have e₁ := h₁.weigh_eq hw (Value.listShaped_get hv "block")
    have e₂ : handler.weigh weight =
        (Fields.get (Fields.set fields "block" block) "handler").weigh weight +
          l₂.weigh each := by
      rw [Fields.get_set, if_neg (by decide)]
      exact h₂.weigh_eq hw (Value.listShaped_get hv "handler")
    have e₃ : finalizer.weigh weight =
        (Fields.get (Fields.set (Fields.set fields "block" block) "handler" handler)
          "finalizer").weigh weight + l₃.weigh each := by
      rw [Fields.get_set, if_neg (by decide), Fields.get_set, if_neg (by decide)]
      exact h₃.weigh_eq hw (Value.listShaped_get hv "finalizer")
    rw [hw.weigh_set (by decide) e₃, hw.weigh_set (by decide) e₂, hw.weigh_set (by decide) e₁,
      Ledger.weigh_append, Ledger.weigh_append]
    omega
  | .switch hc hb h, hv => by
    obtain ⟨hl, hi, hcs⟩ := Value.cases_of_listShaped hv hc hb
    refine hw.weigh_set (by decide) ?_
    rw [Value.weigh_of_elements hl hb]
    exact h.weigh_eq hw hi hcs

theorem InstrumentedPart.weigh_eq (hw : m.Weighs weight each) {v v' : Value} {l : Ledger} :
    InstrumentedPart m start v v' l → v.listShaped = true →
      v'.weigh weight = v.weigh weight + l.weigh each ∧
        (v ≠ .null → ∀ gamma : Nat,
          (prepend (m.charge gamma) v').weigh weight = v'.weigh weight + each gamma)
  | .null, _ => ⟨(Int.add_zero _).symm, fun h => absurd rfl h⟩
  | .block hk hb h, hv => by
    have hf := Value.isListOrAbsent_body hv (Value.container_of_hasKind hk)
    constructor
    · refine hw.weigh_set (by decide) ?_
      rw [Value.weigh_of_elements hf hb]
      exact h.weigh_eq hw (Value.listShaped_of_elements hv hf hb)
    · intro _ gamma
      simp only [prepend, Fields.get_set, if_true]
      refine hw.weigh_set (by decide) ?_
      rw [Fields.get_set, if_pos rfl, Value.weigh_cons, hw.charge, Int.add_comm]
  | .bare hn hk h, hv => by
    have e := h.weigh_eq hw (Value.listShaped_cons.mpr ⟨hv, rfl⟩)
    rw [Value.weigh_cons, Value.weigh_nil, Int.add_zero] at e
    constructor
    · rw [hw.weigh_block, e]
    · intro _ gamma
      rw [prepend_block, hw.weigh_block, hw.weigh_block, Value.weigh_cons, hw.charge, Int.add_comm]

theorem InstrumentedList.weigh_eq (hw : m.Weighs weight each) {items items' : List Value}
    {l : Ledger} : InstrumentedList m start items items' l →
      (Value.list items).listShaped = true →
      (Value.list items').weigh weight = (Value.list items).weigh weight + l.weigh each
  | .nil, _ => (Int.add_zero _).symm
  | .uncharged h _ hs, hi => by
    rw [Value.listShaped_cons] at hi
    have e₁ := h.weigh_eq hw hi.1
    have e₂ := hs.weigh_eq hw hi.2
    rw [Value.weigh_cons, Value.weigh_cons, Ledger.weigh_append]
    omega
  | .charged h _ hp he hs, hi => by
    rw [Value.listShaped_cons] at hi
    have e₁ := h.weigh_eq hw hi.1
    have e₂ := hs.weigh_eq hw hi.2
    have hg := Ledger.weigh_of_charges each (Pricing.gammaFor_charges hp)
    rw [Value.weigh_cons, Value.weigh_cons, Value.weigh_cons, hw.charge, Ledger.weigh_append,
      Ledger.weigh_append, Ledger.weigh_append, hg, Ledger.weigh_entry he]
    omega

theorem InstrumentedCases.weigh_eq (hw : m.Weighs weight each) {cases cases' : List Value}
    {l : Ledger} : InstrumentedCases m start cases cases' l →
      (Value.list cases).listShaped = true →
      (∀ c ∈ cases, Value.isListOrAbsent (c.field? "consequent") = true) →
      (Value.list cases').weigh weight = (Value.list cases).weigh weight + l.weigh each
  | .nil, _, _ => (Int.add_zero _).symm
  | .cons hb h hs, hi, hcs => by
    rw [Value.listShaped_cons] at hi
    have hf : Value.isListOrAbsent (Fields.get? _ "consequent") = true :=
      hcs _ List.mem_cons_self
    have e₁ := h.weigh_eq hw (Value.listShaped_of_elements hi.1 hf hb)
    rw [← Value.weigh_of_elements hf hb] at e₁
    have e₂ := hs.weigh_eq hw hi.2 fun c hc => hcs c (List.mem_cons_of_mem _ hc)
    have e₃ := hw.weigh_set (by decide) e₁
    rw [Value.weigh_cons, Value.weigh_cons, Ledger.weigh_append]
    omega

end

theorem Instrumenter.Weighs.node (hw : m.Weighs weight each) {depth : Int} {tree out : Value}
    (hl : tree.listShaped = true) (h : (m.node depth tree).outcome = .ok out) :
    out.weigh weight = tree.weigh weight + (m.node depth tree).ledger.weigh each :=
  (node_sound (Metered.outcome_ok_iff.mp h)).weigh_eq hw hl

theorem Instrumenter.Weighs.statements (hw : m.Weighs weight each) {tree out : Value}
    (hl : tree.listShaped = true) (h : (m.statements tree).outcome = .ok out) :
    out.weigh weight = tree.weigh weight + (m.statements tree).ledger.weigh each := by
  cases tree with
  | list items =>
    obtain ⟨items', rfl, hs⟩ := statements_sound (Metered.outcome_ok_iff.mp h)
    exact hs.weigh_eq hw hl
  | _ => exact hw.node hl h

end Weighs

end ContractMeter
