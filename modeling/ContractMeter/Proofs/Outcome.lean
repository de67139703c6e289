import ContractMeter.Ledger

/-!
# ContractMeter.Proofs.Outcome

When a metered run succeeds:

* `Metered.Yields` — the run ends with a result, having recorded a ledger.
* `Metered.yields_bind` and its companions take a run apart into its steps.
-/

namespace ContractMeter

theorem totalGamma_append (front back : List Charge) :
    totalGamma (front ++ back) = totalGamma front + totalGamma back := by
  unfold totalGamma
  rw [List.map_append]
  exact List.sum_append_int

namespace Metered

/-- The run ends with the result `a` and has recorded `ledger`. -/
def Yields {α : Type} (x : Metered α) (ledger : Ledger) (a : α) : Prop :=
  x = ⟨ledger, .ok a⟩

theorem Yields.outcome {α : Type} {x : Metered α} {l : Ledger} {a : α} (h : x.Yields l a) :
    x.outcome = .ok a := by
  rw [show x = ⟨l, .ok a⟩ from h]

theorem Yields.ledger {α : Type} {x : Metered α} {l : Ledger} {a : α} (h : x.Yields l a) :
    x.ledger = l := by
  rw [show x = ⟨l, .ok a⟩ from h]

theorem outcome_ok_iff {α : Type} {x : Metered α} {a : α} :
    x.outcome = .ok a ↔ x.Yields x.ledger a := by
  constructor
  · intro h
    cases x
    simp only at h
    rw [h, Yields]
  · exact Yields.outcome

@[simp]
theorem yields_pure {α : Type} {a b : α} {l : Ledger} :
    (Metered.pure a).Yields l b ↔ l = .empty ∧ b = a := by
  constructor
  · intro h
    cases h
    exact ⟨rfl, rfl⟩
  · rintro ⟨rfl, rfl⟩
    rfl

@[simp]
theorem yields_return {α : Type} {a b : α} {l : Ledger} :
    (Pure.pure a : Metered α).Yields l b ↔ l = .empty ∧ b = a :=
  yields_pure

theorem yields_bind {α β : Type} {x : Metered α} {f : α → Metered β} {l : Ledger} {b : β} :
    (x >>= f).Yields l b ↔
      ∃ l₁ a l₂, x.Yields l₁ a ∧ (f a).Yields l₂ b ∧ l = l₁ ++ l₂ := by
  obtain ⟨l₁, outcome⟩ := x
  constructor
  · intro h
    cases outcome with
    | error failure => cases h
    | ok a =>
      have h : (⟨l₁ ++ (f a).ledger, (f a).outcome⟩ : Metered β) = ⟨l, .ok b⟩ := h
      cases hf : f a with
      | mk l₂ o =>
        rw [hf] at h
        cases h
        exact ⟨l₁, a, l₂, rfl, hf, rfl⟩
  · rintro ⟨_, a, l₂, h, hf, rfl⟩
    cases h
    show (⟨l₁ ++ (f a).ledger, (f a).outcome⟩ : Metered β) = _
    rw [show f a = ⟨l₂, .ok b⟩ from hf]

@[simp]
theorem yields_map {α β : Type} {x : Metered α} {f : α → β} {l : Ledger} {b : β} :
    (x.map f).Yields l b ↔ ∃ a, x.Yields l a ∧ b = f a := by
  obtain ⟨l', outcome⟩ := x
  constructor
  · intro h
    cases outcome with
    | error failure => cases h
    | ok a =>
      cases h
      exact ⟨a, rfl, rfl⟩
  · rintro ⟨a, h, rfl⟩
    cases h
    rfl

@[simp]
theorem yields_ofExcept {α : Type} {e : Except Fault α} {l : Ledger} {a : α} :
    (ofExcept e).Yields l a ↔ e = .ok a ∧ l = .empty := by
  cases e with
  | error cause => constructor <;> intro h <;> cases h; contradiction
  | ok b =>
    simp only [ofExcept, yields_pure, Except.ok.injEq]
    constructor
    · rintro ⟨rfl, rfl⟩
      exact ⟨rfl, rfl⟩
    · rintro ⟨rfl, rfl⟩
      exact ⟨rfl, rfl⟩

@[simp]
theorem yields_record {charge : Charge} {l : Ledger} {u : Unit} :
    (record charge).Yields l u ↔ l = ⟨[], [charge]⟩ := by
  constructor
  · intro h
    cases h
    rfl
  · rintro rfl
    rfl

@[simp]
theorem not_yields_reject {α : Type} {reason : Rejection} {l : Ledger} {a : α} :
    ¬ (reject reason : Metered α).Yields l a := by
  intro h
  cases h

@[simp]
theorem not_yields_fault {α : Type} {cause : Fault} {l : Ledger} {a : α} :
    ¬ (fault cause : Metered α).Yields l a := by
  intro h
  cases h

theorem pure_bind {α β : Type} (a : α) (f : α → Metered β) : Metered.pure a >>= f = f a := rfl

theorem map_eq_bind {α β : Type} (x : Metered α) (f : α → β) :
    x.map f = x >>= fun a => Metered.pure (f a) := by
  obtain ⟨l, outcome⟩ := x
  cases outcome with
  | error failure => rfl
  | ok a =>
    show (⟨l, .ok (f a)⟩ : Metered β) = ⟨l ++ .empty, .ok (f a)⟩
    rw [Ledger.append_empty]

theorem charges_bind {α β : Type} {x : Metered α} {f : α → Metered β} (h : x.ledger.charges = [])
    (hf : ∀ a, (f a).ledger.charges = []) : (x >>= f).ledger.charges = [] := by
  obtain ⟨ledger, outcome⟩ := x
  cases outcome with
  | error failure => exact h
  | ok a =>
    show (ledger ++ (f a).ledger).charges = []
    rw [Ledger.charges_append, h, hf a, List.append_nil]

end Metered
end ContractMeter
