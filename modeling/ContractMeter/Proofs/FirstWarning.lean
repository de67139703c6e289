import ContractMeter.Proofs.Congruence
import ContractMeter.Proofs.Pipeline

/-!
# ContractMeter.Proofs.FirstWarning

Strict pricing beside lenient pricing.

* `Metered.Tightened` — a strict run is the lenient run, or ends where that records its first
  warning and rejects with the same message.
* `gammaFor_tightened`, `node_tightened` — prices and walks are so related in the two modes.
* `strict_rejects_at_first_warning` — and so are the pipelines.
-/

namespace ContractMeter

/-- The same pricing in one of the two modes. -/
def Pricing.inMode (p : Pricing) (strict : Bool) : Pricing :=
  { p with strict }

/-- The same instrumenter with strict or lenient pricing. -/
def Instrumenter.inMode (m : Instrumenter) (strict : Bool) : Instrumenter :=
  { m with pricing := m.pricing.inMode strict }

namespace Metered

/-- How a strict run stands to the lenient one. Without a warning it is the same run. Otherwise it
rejects the node of the first warning, and its charges are those that the lenient run began
with. -/
def Tightened {α : Type} (lenient strict : Metered α) : Prop :=
  match lenient.ledger.warnings with
  | [] => strict = lenient
  | first :: _ =>
    strict.ledger.warnings = [] ∧ strict.ledger.charges <+: lenient.ledger.charges ∧
      ∃ kind, strict.outcome = .error (.rejected (.unhandledNode kind)) ∧
        (Rejection.unhandledNode kind).message = first

section Tightened

variable {α β : Type} {x y : Metered α}

theorem tightened_of_silent (h : x.ledger.warnings = []) : x.Tightened x := by
  rw [Tightened, h]

/-- A step behind the first warning is not taken by the strict run. -/
theorem Tightened.bind {f g : α → Metered β} (h : x.Tightened y) (hf : ∀ a, (f a).Tightened (g a)) :
    (x >>= f).Tightened (y >>= g) := by
  obtain ⟨⟨warnings, charges⟩, outcome⟩ := x
  cases warnings with
  | nil =>
    obtain rfl : y = _ := h
    cases outcome with
    | error failure => exact tightened_of_silent rfl
    | ok a =>
      have hf := hf a
      show Tightened ⟨⟨[], charges⟩ ++ (f a).ledger, (f a).outcome⟩
        ⟨⟨[], charges⟩ ++ (g a).ledger, (g a).outcome⟩
      unfold Tightened at hf ⊢
      simp only [Ledger.warnings_append, Ledger.charges_append, List.nil_append]
      split at hf
      · rw [hf]
      · obtain ⟨hs, hc, hr⟩ := hf
        exact ⟨hs, (List.prefix_append_right_inj charges).mpr hc, hr⟩
  | cons first rest =>
    obtain ⟨⟨warnings', charges'⟩, outcome'⟩ := y
    obtain ⟨hs, hc, kind, ho, hm⟩ := h
    simp only at ho
    subst ho
    cases outcome with
    | error failure => exact ⟨hs, hc, kind, rfl, hm⟩
    | ok a => exact ⟨hs, hc.trans (List.prefix_append ..), kind, rfl, hm⟩

end Tightened

end Metered

open Metered

theorem tightened_congruence : Congruence Tightened where
  silent := fun h _ => tightened_of_silent h
  bind := Tightened.bind

/-! ## Prices -/

namespace Pricing

theorem unpriced_tightened (p : Pricing) (kind : Value) :
    ((p.inMode false).unpriced kind).Tightened ((p.inMode true).unpriced kind) :=
  ⟨rfl, List.prefix_refl [], kind, rfl, rfl⟩

theorem related_inMode (p : Pricing) : (p.inMode false).Related Tightened (p.inMode true) 0 where
  unpriced := p.unpriced_tightened
  ceilings := tightened_congruence.ceilings p.maxDepth

theorem gammaFor_tightened (p : Pricing) (depth : Int) (v : Value) :
    ((p.inMode false).gammaFor depth v).Tightened ((p.inMode true).gammaFor depth v) :=
  gammaFor_related tightened_congruence p.related_inMode depth v

theorem gammaPerIteration_tightened (p : Pricing) (depth : Int) (loop : Value) :
    ((p.inMode false).gammaPerIteration depth loop).Tightened
      ((p.inMode true).gammaPerIteration depth loop) :=
  gammaPerIteration_related tightened_congruence p.related_inMode depth loop

end Pricing

/-! ## Walks -/

namespace Instrumenter

theorem related_inMode (m : Instrumenter) :
    (m.inMode false).Related Tightened (m.inMode true) 0 where
  call := rfl
  pricing := ⟨0, m.pricing.related_inMode⟩
  ceilings := tightened_congruence.ceilings m.maxDepth

theorem node_tightened (m : Instrumenter) (depth : Int) (v : Value) :
    ((m.inMode false).node depth v).Tightened ((m.inMode true).node depth v) :=
  node_related tightened_congruence m.related_inMode depth v

theorem statements_tightened (m : Instrumenter) (tree : Value) :
    ((m.inMode false).statements tree).Tightened ((m.inMode true).statements tree) :=
  statements_related tightened_congruence m.related_inMode tree

end Instrumenter

/-! ## Pipelines -/

/-- **Strict is lenient up to the first warning**, which it rejects instead. This holds of the
pipeline on any tree or list of statements with any ceilings, of a price and of the price of a pass
through a loop. -/
theorem strict_rejects_at_first_warning :
    (∀ (s : Sanitizer) (m : Instrumenter) (tree : Value),
      (renameThen s ((m.inMode false).node 0) tree).Tightened
        (renameThen s ((m.inMode true).node 0) tree)) ∧
    (∀ (s : Sanitizer) (m : Instrumenter) (tree : Value),
      (renameThen s (m.inMode false).statements tree).Tightened
        (renameThen s (m.inMode true).statements tree)) ∧
    (∀ (p : Pricing) (depth : Int) (v : Value),
      ((p.inMode false).gammaFor depth v).Tightened ((p.inMode true).gammaFor depth v)) ∧
    (∀ (p : Pricing) (depth : Int) (loop : Value),
      ((p.inMode false).gammaPerIteration depth loop).Tightened
        ((p.inMode true).gammaPerIteration depth loop)) := by
  refine ⟨fun s m tree => ?_, fun s m tree => ?_, Pricing.gammaFor_tightened,
    Pricing.gammaPerIteration_tightened⟩
  · exact (tightened_of_silent rfl).bind fun renamed => m.node_tightened 0 renamed
  · exact (tightened_of_silent rfl).bind fun renamed => m.statements_tightened renamed

end ContractMeter
