import ContractMeter.Instrumenter
import ContractMeter.Sanitizer
import ContractMeter.Proofs.Price

/-!
# ContractMeter.Proofs.Avoidance

What the steps of the passes reject a contract for.

* `Metered.Avoids` — a run that does not end with a rejection of some sort, with a rule for each
  way to build it.
* `settled_operator_avoids` and its companions — a step of a price rejects for a missing price.
* `sanitizeAt_rejects` — renaming rejects at its ceiling only.
-/

namespace ContractMeter

namespace Rejection

/-- Whether a contract is rejected for a computation without a price. -/
def isUnpriced : Rejection → Bool
  | operatorNotCosted _ => true
  | unhandledNode _ => true
  | literalNotCosted _ => true
  | _ => false

def isTooDeep : Rejection → Bool
  | tooDeep _ => true
  | _ => false

/-- Whether a contract is rejected for its source, before there is a tree. -/
def isOfSource : Rejection → Bool
  | syntaxError .. => true
  | sourceTooLarge .. => true
  | _ => false

theorem isTooDeep_of_isUnpriced {reason : Rejection} (h : reason.isUnpriced = true) :
    reason.isTooDeep = false := by
  cases reason <;> first | rfl | cases h

theorem isOfSource_of_isUnpriced {reason : Rejection} (h : reason.isUnpriced = true) :
    reason.isOfSource = false := by
  cases reason <;> first | rfl | cases h

end Rejection

namespace Metered

/-- A run that does not end with such a rejection. -/
def Avoids {α : Type} (x : Metered α) (bad : Rejection → Bool) : Prop :=
  ∀ reason, x.outcome = .error (.rejected reason) → bad reason = false

section Avoids

variable {α β : Type} {bad : Rejection → Bool} {x : Metered α}

theorem avoids_pure (a : α) : (Metered.pure a).Avoids bad :=
  fun _ h => nomatch h

theorem avoids_fault (cause : Fault) : (fault cause : Metered α).Avoids bad :=
  fun _ h => nomatch h

theorem avoids_reject {reason : Rejection} (hr : bad reason = false) :
    (reject reason : Metered α).Avoids bad := by
  intro reason' h
  cases h
  exact hr

theorem avoids_ofExcept (e : Except Fault α) : (ofExcept e).Avoids bad := by
  cases e with
  | ok a => exact avoids_pure a
  | error cause => exact avoids_fault cause

theorem Avoids.bind {f : α → Metered β} (h : x.Avoids bad)
    (hf : ∀ l a, x.Yields l a → (f a).Avoids bad) : (x >>= f).Avoids bad := by
  intro reason ho
  obtain ⟨l, outcome⟩ := x
  cases outcome with
  | ok a => exact hf l a rfl reason ho
  | error failure =>
    have ho : (.error failure : Except Failure β) = .error (.rejected reason) := ho
    cases ho
    exact h reason rfl

theorem Avoids.map {f : α → β} (h : x.Avoids bad) : (x.map f).Avoids bad := by
  intro reason ho
  obtain ⟨l, outcome⟩ := x
  cases outcome with
  | ok a => cases ho
  | error failure =>
    cases ho
    exact h reason rfl

end Avoids

end Metered

open Metered

/-! ## Prices -/

namespace Pricing

variable {p : Pricing} {price : Value → Metered Nat} {v : Value} {bad : Rejection → Bool}

theorem required_avoids (node : Value) (name : String) : (required node name).Avoids bad := by
  unfold required
  split
  · exact avoids_pure _
  · exact avoids_fault _

theorem optional_avoids (h : (price v).Avoids bad) : (optional price v).Avoids bad := by
  unfold optional
  split
  · exact avoids_pure _
  · exact h

theorem sumOf_avoids {items : List Value} (h : ∀ item ∈ items, (price item).Avoids bad) :
    (sumOf price items).Avoids bad := by
  induction items with
  | nil => exact avoids_pure _
  | cons item rest ih =>
    rw [List.forall_mem_cons] at h
    exact h.1.bind fun _ _ _ => (ih h.2).map

section Unpriced

variable (hbad : ∀ {reason : Rejection}, reason.isUnpriced = true → bad reason = false)

include hbad

theorem settled_operator_avoids (operator : Value) :
    (settled (gammaForOperator operator)).Avoids bad := by
  unfold gammaForOperator
  split
  · split
    · split
      · exact avoids_pure _
      · exact avoids_reject (hbad rfl)
    · exact avoids_reject (hbad rfl)
  · exact avoids_fault _

theorem settled_literal_avoids (literal : Value) :
    (settled (gammaForLiteral literal)).Avoids bad := by
  unfold gammaForLiteral encodeLiteral
  dsimp only
  cases (storedLiteral literal).unwritable? false with
  | none =>
    cases (storedLiteral literal).encodable with
    | false => exact avoids_fault _
    | true => exact avoids_pure _
  | some part =>
    cases part with
    | hostObject => exact avoids_reject (hbad rfl)
    | hugeInteger => exact avoids_fault _

theorem assignedOperator_avoids (operator : Value) : (assignedOperator operator).Avoids bad := by
  unfold assignedOperator
  split
  · exact avoids_pure _
  · split
    · exact settled_operator_avoids hbad _
    · exact avoids_fault _

theorem unpriced_avoids (kind : Value) : (p.unpriced kind).Avoids bad := by
  unfold unpriced
  split
  · exact avoids_reject (hbad rfl)
  · exact fun _ h => nomatch h

theorem initial_avoids (h : (price v).Avoids bad) : (initial price v).Avoids bad := by
  unfold initial
  split
  · exact avoids_pure _
  · split
    · exact settled_literal_avoids hbad _
    · exact h

end Unpriced

end Pricing

namespace Instrumenter

theorem recordCharge_avoids {bad : Rejection → Bool} (statement : Value) (gamma : Nat)
    (label : Option String) : (recordCharge statement gamma label).Avoids bad :=
  (avoids_ofExcept _).bind fun _ _ _ _ h => nomatch h

end Instrumenter

/-! ## Renaming -/

namespace Sanitizer

variable {s : Sanitizer}

theorem eachItem_rejects {p : Rejection → Prop} {f : Value → Except Failure Value}
    (hf : ∀ v reason, f v = .error (.rejected reason) → p reason) {items : List Value}
    {reason : Rejection} (h : eachItem f items = .error (.rejected reason)) : p reason := by
  induction items with
  | nil => cases h
  | cons item rest ih =>
    rw [eachItem] at h
    cases hi : f item with
    | error failure =>
      rw [hi] at h
      cases h
      exact hf item _ hi
    | ok item' =>
      rw [hi] at h
      cases hr : eachItem f rest with
      | error failure =>
        rw [hr] at h
        cases h
        exact ih hr
      | ok rest' =>
        rw [hr] at h
        cases h

theorem eachField_rejects {p : Rejection → Prop} {f : Value → Except Failure Value}
    (hf : ∀ v reason, f v = .error (.rejected reason) → p reason) {fields : Fields}
    {reason : Rejection} (h : eachField f fields = .error (.rejected reason)) : p reason := by
  induction fields with
  | nil => cases h
  | cons field rest ih =>
    obtain ⟨key, v⟩ := field
    rw [eachField] at h
    cases hv : f v with
    | error failure =>
      rw [hv] at h
      cases h
      exact hf v _ hv
    | ok v' =>
      rw [hv] at h
      cases hr : eachField f rest with
      | error failure =>
        rw [hr] at h
        cases h
        exact ih hr
      | ok rest' =>
        rw [hr] at h
        cases h

theorem not_rename_rejects {fields : Fields} {reason : Rejection} :
    s.rename fields ≠ .error (.rejected reason) := by
  intro h
  simp only [rename] at h
  split at h
  · cases h
  · split at h <;> cases h

/-- Renaming rejects a contract at its ceiling, and nowhere else. -/
theorem sanitizeAt_rejects {levels : Nat} {v : Value} {reason : Rejection}
    (h : s.sanitizeAt levels v = .error (.rejected reason)) :
    reason = .tooDeep (some s.maxDepth) := by
  induction levels generalizing v reason with
  | zero =>
    cases h
    rfl
  | succ levels ih =>
    cases v with
    | list items =>
      rw [sanitizeAt] at h
      cases hi : eachItem (s.sanitizeAt levels) items with
      | error failure =>
        rw [hi] at h
        cases h
        exact eachItem_rejects (fun _ _ => ih) hi
      | ok items' =>
        rw [hi] at h
        cases h
    | record fields =>
      simp only [sanitizeAt] at h
      split at h
      · exact absurd h not_rename_rejects
      · split at h
        · cases h
        · cases hf : eachField (s.sanitizeAt levels) fields with
          | error failure =>
            rw [hf] at h
            cases h
            exact eachField_rejects (fun _ _ => ih) hf
          | ok fields' =>
            rw [hf] at h
            cases h
    | _ => cases h

end Sanitizer

end ContractMeter
