import ContractMeter.Price.Computation
import ContractMeter.Proofs.Field
import ContractMeter.Proofs.Outcome

/-!
# ContractMeter.Proofs.Price

What a price is made of.

* `Pricing.gammaAt_mono` — a price found within some levels is found within more.
* `Pricing.Costs` — the price of several computations together.
* `Pricing.costs_test` and its companions — the price of a statement is that of the computations
  it begins with.
-/

namespace ContractMeter
namespace Pricing

open Metered

/-- The computations that a part holds; a null part holds none. -/
def present : Value → List Value
  | .null => []
  | v => [v]

theorem optional_of_ne_null {price : Value → Metered Nat} {part : Value} (h : part ≠ .null) :
    optional price part = price part := by
  cases part <;> first | contradiction | rfl

theorem initial_of_ne_null {price : Value → Metered Nat} {init : Value} (h : init ≠ .null) :
    initial price init =
      if init.hasKind "Literal" then settled (gammaForLiteral (declaredLiteral init))
      else price init := by
  cases init <;> first | contradiction | rfl

def Extends (price price' : Value → Metered Nat) : Prop :=
  ∀ ⦃v : Value⦄ ⦃l : Ledger⦄ ⦃g : Nat⦄, (price v).Yields l g → (price' v).Yields l g

section Extends

variable {p : Pricing} {price price' : Value → Metered Nat}

theorem sumOf_extends (h : Extends price price') {items : List Value} {l : Ledger} {g : Nat}
    (hy : (sumOf price items).Yields l g) : (sumOf price' items).Yields l g := by
  induction items generalizing l g with
  | nil => exact hy
  | cons item rest ih =>
    simp only [sumOf, yields_bind, yields_map] at hy ⊢
    obtain ⟨l₁, g₁, l₂, h₁, ⟨g₂, h₂, rfl⟩, rfl⟩ := hy
    exact ⟨l₁, g₁, l₂, h h₁, ⟨g₂, ih h₂, rfl⟩, rfl⟩

theorem optional_extends (h : Extends price price') : Extends (optional price) (optional price')
  | .null, _, _, hy => hy
  | .bool _, _, _, hy | .int _, _, _, hy | .float _, _, _, hy | .text _, _, _, hy
  | .broken _, _, _, hy | .list _, _, _, hy | .record _, _, _, hy | .host _, _, _, hy => h hy

theorem initial_extends (h : Extends price price') :
    Extends (initial price) (initial price') := by
  intro v l g hy
  unfold initial at hy ⊢
  split at hy
  · exact hy
  · split at hy
    · rwa [if_pos ‹_›]
    · rw [if_neg ‹_›]
      exact h hy

theorem byRule_extends (h : Extends price price') (rule : PriceRule) :
    Extends (p.byRule price rule) (p.byRule price' rule) := by
  intro v l g hy
  cases rule with
  | free | operator | unpriced => exact hy
  | expression =>
    simp only [byRule, yields_bind] at hy ⊢
    obtain ⟨l₁, inner, l₂, h₁, h₂, rfl⟩ := hy
    exact ⟨l₁, inner, l₂, h₁, h h₂, rfl⟩
  | argument | test => exact optional_extends h hy
  | declarations => exact h hy
  | declarator => exact initial_extends h hy
  | assignment =>
    simp only [byRule, yields_bind] at hy ⊢
    obtain ⟨l₁, right, l₂, h₁, h₂, rfl⟩ := hy
    exact ⟨l₁, right, l₂, h h₁, h₂, rfl⟩
  | testAndInit =>
    simp only [byRule, yields_bind] at hy ⊢
    obtain ⟨l₁, test, _, h₁, ⟨l₂, init, l₃, h₂, h₃, rfl⟩, rfl⟩ := hy
    exact ⟨l₁, test, _, optional_extends h h₁,
      ⟨l₂, init, l₃, optional_extends h h₂, h₃, rfl⟩, rfl⟩

end Extends

theorem gammaAt_succ {p : Pricing} {levels : Nat} {v : Value} (hv : ∀ items, v ≠ .list items) :
    p.gammaAt (levels + 1) v =
      match v.kind with
      | .text name => p.byRule (p.gammaAt levels) (PriceRule.ofKind name) v
      | kind => if kind.usableKey then p.unpriced kind else .fault .unusableKey := by
  cases v with
  | list items => exact absurd rfl (hv items)
  | _ => rfl

theorem gammaAt_extends_succ (p : Pricing) (levels : Nat) :
    Extends (p.gammaAt levels) (p.gammaAt (levels + 1)) := by
  induction levels with
  | zero =>
    intro v l g hy
    simp [gammaAt, tooDeep] at hy
  | succ levels ih =>
    intro v l g hy
    by_cases hv : ∃ items, v = .list items
    · obtain ⟨items, rfl⟩ := hv
      exact sumOf_extends ih hy
    · have hv : ∀ items, v ≠ .list items := fun items e => hv ⟨items, e⟩
      rw [gammaAt_succ hv] at hy ⊢
      split
      · rename_i name hn
        rw [hn] at hy
        exact byRule_extends ih _ hy
      · rename_i hn
        split at hy
        · rename_i name hn'
          exact absurd hn' (hn name)
        · exact hy

theorem gammaAt_mono {p : Pricing} {n n' : Nat} (h : n ≤ n') :
    Extends (p.gammaAt n) (p.gammaAt n') := by
  induction h with
  | refl => exact fun _ _ _ hy => hy
  | step _ ih => exact fun _ _ _ hy => gammaAt_extends_succ p _ (ih hy)

/-! ## What a price records -/

section Charges

theorem settled_charges (e : Except Failure Nat) : (settled e).ledger.charges = [] := by
  cases e <;> rfl

variable {p : Pricing} {price : Value → Metered Nat} (h : ∀ v, (price v).ledger.charges = [])

include h

theorem sumOf_charges (items : List Value) : (sumOf price items).ledger.charges = [] := by
  induction items with
  | nil => rfl
  | cons item rest ih => exact charges_bind (h item) fun _ => ih

theorem optional_charges (part : Value) : (optional price part).ledger.charges = [] := by
  unfold optional
  split
  · rfl
  · exact h part

theorem byRule_charges (rule : PriceRule) (node : Value) :
    (p.byRule price rule node).ledger.charges = [] := by
  have hr (name : String) : (required node name).ledger.charges = [] := by
    unfold required
    split <;> rfl
  cases rule with
  | free => rfl
  | operator => exact charges_bind (hr _) fun _ => settled_charges _
  | expression => exact charges_bind (hr _) h
  | argument | test => exact optional_charges h _
  | declarations => exact h _
  | declarator =>
    simp only [byRule, initial]
    split
    · rfl
    · split
      · exact settled_charges _
      · exact h _
  | assignment =>
    refine charges_bind (h _) fun _ => charges_bind ?_ fun _ => rfl
    unfold assignedOperator
    split
    · rfl
    · split
      · exact settled_charges _
      · rfl
  | testAndInit =>
    exact charges_bind (optional_charges h _) fun _ =>
      charges_bind (optional_charges h _) fun _ => rfl
  | unpriced =>
    simp only [byRule, unpriced]
    split <;> rfl

end Charges

/-- A price may leave warnings, but places no charges. -/
theorem gammaAt_charges (p : Pricing) (levels : Nat) (v : Value) :
    (p.gammaAt levels v).ledger.charges = [] := by
  induction levels generalizing v with
  | zero => rfl
  | succ levels ih =>
    by_cases hv : ∃ items, v = .list items
    · obtain ⟨items, rfl⟩ := hv
      exact sumOf_charges ih items
    · rw [gammaAt_succ fun items e => hv ⟨items, e⟩]
      split
      · exact byRule_charges ih _ v
      · split
        · unfold unpriced
          split <;> rfl
        · rfl

section Charges

variable {p : Pricing} {depth : Int} {v : Value} {l : Ledger} {g : Nat}

theorem gammaFor_charges (h : (p.gammaFor depth v).Yields l g) : l.charges = [] := by
  rw [← h.ledger]
  exact p.gammaAt_charges _ v

theorem gammaPerIteration_charges (h : (p.gammaPerIteration depth v).Yields l g) :
    l.charges = [] := by
  rw [← h.ledger, gammaPerIteration]
  cases levelsLeft p.maxDepth depth with
  | zero => rfl
  | succ levels =>
    cases v with
    | record fields =>
      have hc := optional_charges (p.gammaAt_charges levels)
      exact charges_bind (hc _) fun _ => charges_bind (hc _) fun _ => rfl
    | _ => rfl

end Charges

/-! ## The fields a price is read from -/

/-- The fields that some rule reads. -/
def pricedFields : List String :=
  ["type", "operator", "expression", "argument", "declarations", "init", "right", "test"]

section Congruence

variable {fields fields' : Fields}

theorem byRule_congr {p : Pricing} {price : Value → Metered Nat} {rule : PriceRule}
    (h : ∀ name ∈ pricedFields, Fields.get? fields' name = Fields.get? fields name) :
    p.byRule price rule (.record fields') = p.byRule price rule (.record fields) := by
  have hk : (Value.record fields').kind = (Value.record fields).kind := by
    simp [Value.kind, Value.typeName, h "type" (by decide)]
  have hf (name : String) (hn : name ∈ pricedFields) :
      (Value.record fields').field name = (Value.record fields).field name := by
    simp [Fields.get, h name hn]
  cases rule <;> simp only [byRule, required, hk, Value.field?_record,
    h "operator" (by decide), h "expression" (by decide), h "declarations" (by decide),
    hf "argument" (by decide), hf "init" (by decide), hf "right" (by decide),
    hf "test" (by decide)]

theorem gammaAt_congr {p : Pricing}
    (h : ∀ name ∈ pricedFields, Fields.get? fields' name = Fields.get? fields name) (n : Nat) :
    p.gammaAt n (.record fields') = p.gammaAt n (.record fields) := by
  have hk : (Value.record fields').kind = (Value.record fields).kind := by
    simp [Value.kind, Value.typeName, h "type" (by decide)]
  cases n with
  | zero => rfl
  | succ n =>
    rw [gammaAt_succ (by simp), gammaAt_succ (by simp), hk]
    split
    · exact byRule_congr h
    · rfl

end Congruence

/-! ## Prices of several computations -/

section Costs

variable {p : Pricing} {v : Value} {vs ws : List Value} {name : String} {l : Ledger} {g g' n : Nat}

/-- The prices of the computations, each on its own, add up to `g`. -/
def Costs (p : Pricing) (vs : List Value) (g : Nat) : Prop :=
  (sumOf (p.gammaFor 0) vs).outcome = .ok g

theorem costs_nil : Costs p [] 0 := rfl

theorem costs_cons (h : (p.gammaFor 0 v).Yields l g) (hs : Costs p vs g') :
    Costs p (v :: vs) (g + g') := by
  have hy : (sumOf (p.gammaFor 0) (v :: vs)).Yields
      (l ++ (sumOf (p.gammaFor 0) vs).ledger) (g + g') := by
    simp only [sumOf, yields_bind, yields_map]
    exact ⟨_, _, _, h, ⟨_, outcome_ok_iff.mp hs, rfl⟩, rfl⟩
  exact hy.outcome

theorem costs_append (h : Costs p vs g) (h' : Costs p ws g') : Costs p (vs ++ ws) (g + g') := by
  induction vs generalizing g with
  | nil =>
    cases h
    simpa using h'
  | cons v vs ih =>
    have hy := outcome_ok_iff.mp h
    simp only [sumOf, yields_bind, yields_map] at hy
    obtain ⟨l₁, g₁, l₂, h₁, ⟨g₂, h₂, rfl⟩, _⟩ := hy
    rw [List.cons_append, Nat.add_assoc]
    exact costs_cons h₁ (ih h₂.outcome)

theorem costs_single (h : (p.gammaFor 0 v).Yields l g) : Costs p [v] g :=
  costs_cons h costs_nil

theorem costs_present (hn : n ≤ levelsLeft p.maxDepth 0)
    (h : (optional (p.gammaAt n) v).Yields l g) : Costs p (present v) g := by
  cases v with
  | null =>
    cases h
    exact costs_nil
  | _ => exact costs_single (gammaAt_mono hn h)

theorem yields_byRule (hk : v.hasKind name = true) (h : (p.gammaFor 0 v).Yields l g) :
    ∃ n, n ≤ levelsLeft p.maxDepth 0 ∧
      (p.byRule (p.gammaAt n) (PriceRule.ofKind name) v).Yields l g := by
  have hf := Value.hasKind_iff.mp hk
  unfold gammaFor at h
  cases hl : levelsLeft p.maxDepth 0 with
  | zero => simp [hl, gammaAt, tooDeep] at h
  | succ levels =>
    rw [hl, gammaAt_succ (by rintro items rfl; cases hf)] at h
    simp only [Value.kind, hf, Option.getD_some] at h
    exact ⟨levels, by omega, h⟩

theorem zero_of_free (hk : v.hasKind name = true) (hr : PriceRule.ofKind name = .free)
    (h : (p.gammaFor 0 v).Yields l g) : g = 0 := by
  obtain ⟨n, _, hy⟩ := yields_byRule hk h
  rw [hr] at hy
  exact (yields_pure.mp hy).2

theorem zero_of_unpriced (hk : v.hasKind name = true) (hr : PriceRule.ofKind name = .unpriced)
    (h : (p.gammaFor 0 v).Yields l g) : g = 0 := by
  obtain ⟨n, _, hy⟩ := yields_byRule hk h
  simp only [hr, byRule, unpriced] at hy
  split at hy
  · exact absurd hy not_yields_reject
  · obtain ⟨_, _, rfl⟩ := yields_map.mp hy
    rfl

theorem costs_argument (hk : v.hasKind name = true) (hr : PriceRule.ofKind name = .argument)
    (h : (p.gammaFor 0 v).Yields l g) : Costs p (present (v.field "argument")) g := by
  obtain ⟨n, hn, hy⟩ := yields_byRule hk h
  rw [hr] at hy
  exact costs_present hn hy

theorem costs_test (hk : v.hasKind name = true) (hr : PriceRule.ofKind name = .test)
    (h : (p.gammaFor 0 v).Yields l g) : Costs p (present (v.field "test")) g := by
  obtain ⟨n, hn, hy⟩ := yields_byRule hk h
  rw [hr] at hy
  exact costs_present hn hy

theorem costs_init_test (hk : v.hasKind name = true) (hr : PriceRule.ofKind name = .testAndInit)
    (h : (p.gammaFor 0 v).Yields l g) :
    ∃ g₁ g₂, Costs p (present (v.field "init")) g₁ ∧ Costs p (present (v.field "test")) g₂ ∧
      g = g₁ + g₂ := by
  obtain ⟨n, hn, hy⟩ := yields_byRule hk h
  simp only [hr, byRule, yields_bind, yields_return] at hy
  obtain ⟨_, test, _, ht, ⟨_, init, _, hi, ⟨_, rfl⟩, _⟩, _⟩ := hy
  exact ⟨init, test, costs_present hn hi, costs_present hn ht, Nat.add_comm ..⟩

/-- What a loop is charged for a pass is the price of its test and its update. -/
theorem costs_perIteration {depth : Int} {fields : Fields} (hd : 0 ≤ depth)
    (h : (p.gammaPerIteration depth (.record fields)).Yields l g) :
    ∃ g₁ g₂, Costs p (present (Fields.get fields "update")) g₁ ∧
      Costs p (present (Fields.get fields "test")) g₂ ∧ g = g₁ + g₂ := by
  unfold gammaPerIteration at h
  cases hl : levelsLeft p.maxDepth depth with
  | zero => simp [hl, gammaPerIterationAt, tooDeep] at h
  | succ levels =>
    have hn : levels ≤ levelsLeft p.maxDepth 0 := by
      unfold levelsLeft at hl ⊢
      omega
    simp only [hl, gammaPerIterationAt, yields_bind, yields_return] at h
    obtain ⟨_, test, _, ht, ⟨_, update, _, hu, ⟨_, rfl⟩, _⟩, _⟩ := h
    exact ⟨update, test, costs_present hn hu, costs_present hn ht, Nat.add_comm ..⟩

end Costs

end Pricing
end ContractMeter
