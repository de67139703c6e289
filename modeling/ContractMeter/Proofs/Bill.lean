import Mathlib.Algebra.BigOperators.Group.List.Basic
import Mathlib.Algebra.Group.Prod
import Mathlib.Algebra.Order.Group.Multiset
import Mathlib.Algebra.Order.Monoid.Unbundled.WithTop
import ContractMeter.Proofs.Instrumented

/-!
# ContractMeter.Proofs.Bill

What runs record when order does not count.

* `Metered.bill` — charges and warnings as multisets; `⊤` for a run that fails. Bills add up along
  a run, so a sum over statements says what a list of them records.
* `Metered.SameBill` — what two runs with the same bill have in common.
* `Instrumenter.bill_sequenceAt`, `Instrumenter.bill_casesAt` — the bills of lists of statements and
  of the cases of a `switch`.
-/

namespace ContractMeter

open Instrumenter (isUncharged)

namespace Metered

/-- Charges and warnings in no order, or nothing at all. -/
abbrev Bill := WithTop (Multiset Charge × Multiset String)

section Bill

variable {α β γ : Type} {x : Metered α}

def bill (x : Metered α) : Bill :=
  match x.outcome with
  | .ok _ => WithTop.some (↑x.ledger.charges, ↑x.ledger.warnings)
  | .error _ => ⊤

theorem bill_pure (a : α) : (Metered.pure a).bill = 0 := rfl

/-- The bill of what follows is added, if it does not depend on the result. -/
theorem bill_bind {f : α → Metered β} {b : Bill} (h : ∀ l a, x.Yields l a → (f a).bill = b) :
    (x >>= f).bill = x.bill + b := by
  obtain ⟨l, outcome⟩ := x
  cases outcome with
  | error failure => exact (WithTop.top_add b).symm
  | ok a =>
    rw [← h l a rfl]
    cases hf : f a with
    | mk l' outcome' =>
      have hb : ((⟨l, .ok a⟩ : Metered α) >>= f) = ⟨l ++ l', outcome'⟩ := by
        show (⟨l ++ (f a).ledger, (f a).outcome⟩ : Metered β) = _
        rw [hf]
      rw [hb]
      cases outcome' with
      | error failure => rfl
      | ok b => rfl

theorem bill_bind_congr {f : α → Metered β} {g : α → Metered γ} (h : ∀ a, (f a).bill = (g a).bill) :
    (x >>= f).bill = (x >>= g).bill := by
  obtain ⟨l, outcome⟩ := x
  cases outcome with
  | error failure => rfl
  | ok a =>
    have hf := bill_bind (x := ⟨l, .ok a⟩) (f := f) (b := (f a).bill) fun _ _ hy => by
      cases hy
      rfl
    have hg := bill_bind (x := ⟨l, .ok a⟩) (f := g) (b := (g a).bill) fun _ _ hy => by
      cases hy
      rfl
    rw [hf, hg, h a]

/-- Runs with the same bill are followed by runs with the same bill. -/
theorem bill_bind_same {x' : Metered α} {f f' : α → Metered β} (hx : x'.bill = x.bill)
    (hf : ∀ a' a, (f' a').bill = (f a).bill) : (x' >>= f').bill = (x >>= f).bill := by
  obtain ⟨l, outcome⟩ := x
  cases outcome with
  | error failure =>
    obtain ⟨l', outcome'⟩ := x'
    cases outcome' with
    | error failure' => rfl
    | ok a' => cases hx
  | ok a =>
    rw [bill_bind fun _ a' _ => hf a' a, hx]
    refine (bill_bind fun _ _ h => ?_).symm
    cases h
    rfl

/-- A step that records nothing more leaves the bill as it is. -/
theorem bill_finish {f : α → β} : (x >>= fun a => Metered.pure (f a)).bill = x.bill := by
  rw [bill_bind fun _ a _ => bill_pure (f a), add_zero]

theorem bill_map {f : α → β} : (x.map f).bill = x.bill := by
  rw [map_eq_bind, bill_finish]

end Bill

/-- Both runs succeed, with the same total and the same charges and warnings in some order, or both
fail. -/
structure SameBill {α β : Type} (x : Metered α) (y : Metered β) : Prop where
  succeeds : (∃ a, x.outcome = .ok a) ↔ ∃ b, y.outcome = .ok b
  total : (∃ a, x.outcome = .ok a) → totalGamma y.ledger.charges = totalGamma x.ledger.charges
  charges : (∃ a, x.outcome = .ok a) → x.ledger.charges.Perm y.ledger.charges
  warnings : (∃ a, x.outcome = .ok a) → x.ledger.warnings.Perm y.ledger.warnings

theorem totalGamma_perm {charges charges' : List Charge} (h : charges.Perm charges') :
    totalGamma charges' = totalGamma charges :=
  (h.map Charge.gamma).sum_eq.symm

theorem sameBill_of_eq {α β : Type} {x : Metered α} {y : Metered β} (h : y.bill = x.bill) :
    x.SameBill y := by
  obtain ⟨l, outcome⟩ := x
  obtain ⟨l', outcome'⟩ := y
  cases outcome with
  | error failure =>
    cases outcome' with
    | error failure' => exact ⟨⟨nofun, nofun⟩, nofun, nofun, nofun⟩
    | ok b => cases h
  | ok a =>
    cases outcome' with
    | error failure' => cases h
    | ok b =>
      have he := Prod.mk.inj (WithTop.coe_injective h)
      have hc : l.charges.Perm l'.charges := (Multiset.coe_eq_coe.mp he.1).symm
      have hw : l.warnings.Perm l'.warnings := (Multiset.coe_eq_coe.mp he.2).symm
      exact ⟨⟨fun _ => ⟨b, rfl⟩, fun _ => ⟨a, rfl⟩⟩, fun _ => totalGamma_perm hc, fun _ => hc,
        fun _ => hw⟩

end Metered

open Metered

namespace Instrumenter

variable {m : Instrumenter} {n : Nat}

/-! ## Statements -/

theorem chargeOf_congr {v w : Value} (hk : w.kind = v.kind) (hl : w.line = v.line) (gamma : Int)
    (label : Option String) : Charge.of w gamma label = Charge.of v gamma label := by
  rw [Charge.of, Charge.of, hk, hl]

/-- The charge of a statement depends on its price, its kind and its line. -/
theorem bill_charged_congr {v w : Value} (hu : isUncharged w = isUncharged v)
    (hp : m.pricing.gammaFor 0 w = m.pricing.gammaFor 0 v) (hk : w.kind = v.kind)
    (hl : w.line = v.line) : (m.charged w).bill = (m.charged v).bill := by
  unfold charged
  rw [hu, hp]
  split
  · rfl
  · refine bill_bind_congr fun gamma => ?_
    rw [recordCharge, recordCharge, chargeOf_congr hk hl]
    exact bill_finish.trans bill_finish.symm

/-- What a statement in a list adds to the bill: what it holds and its own charge. -/
def statementBill (m : Instrumenter) (n : Nat) (v : Value) : Bill :=
  (m.nodeAt n v).bill + (m.charged v).bill

theorem bill_chargeEach (items : List Value) :
    (m.chargeEach (m.nodeAt n) items).bill = (items.map (m.statementBill n)).sum := by
  induction items with
  | nil => rfl
  | cons item rest ih =>
    rw [List.map_cons, List.sum_cons, statementBill, add_assoc, ← ih]
    refine bill_bind fun l v' hy => ?_
    -- the charge is that of the statement before it was instrumented
    have hv := nodeAt_sound n (Int.le_refl _) hy
    rw [← bill_charged_congr hv.isUncharged_eq (hv.gammaFor_eq _ 0) hv.kind_eq hv.line_eq]
    exact bill_bind fun _ _ _ => bill_map

/-- The bill of a list of statements is the sum over them. -/
theorem bill_sequenceAt (items : List Value) :
    (m.sequenceAt (n + 1) (.list items)).bill = (items.map (m.statementBill n)).sum := by
  rw [← bill_chargeEach, sequenceAt, chargeElements]
  exact bill_finish

theorem bill_sequenceAt_perm {items items' : List Value} (h : items.Perm items') (n : Nat) :
    (m.sequenceAt n (.list items')).bill = (m.sequenceAt n (.list items)).bill := by
  cases n with
  | zero => rfl
  | succ n => rw [bill_sequenceAt, bill_sequenceAt, (h.map _).sum_eq]

theorem bill_innerSequenceAt_congr {v w : Value}
    (h : ∀ n, (m.sequenceAt n w).bill = (m.sequenceAt n v).bill) (n : Nat) :
    (m.innerSequenceAt n w).bill = (m.innerSequenceAt n v).bill := by
  cases n with
  | zero => rfl
  | succ n => exact h n

/-! ## Cases -/

/-- The walk over a value that is read as the cases of a `switch`. -/
def casesAt (m : Instrumenter) (n : Nat) (v : Value) : Metered (List Value) :=
  Metered.ofExcept v.elements >>= eachCase (m.innerSequenceAt n)

/-- What a case adds to the bill. -/
def caseBill (m : Instrumenter) (n : Nat) : Value → Bill
  | .record fields => (m.innerSequenceAt n ((Fields.get? fields "consequent").getD (.list []))).bill
  | _ => ⊤

theorem bill_eachCase (cases : List Value) :
    (eachCase (m.innerSequenceAt n) cases).bill = (cases.map (m.caseBill n)).sum := by
  induction cases with
  | nil => rfl
  | cons c rest ih =>
    rw [List.map_cons, List.sum_cons, ← ih]
    cases c with
    | record fields => exact bill_bind fun _ _ _ => bill_map
    | _ => exact (WithTop.top_add _).symm

theorem bill_casesAt (cases : List Value) :
    (m.casesAt n (.list cases)).bill = (cases.map (m.caseBill n)).sum := by
  rw [← bill_eachCase]
  rfl

end Instrumenter

end ContractMeter
