import ContractMeter.Proofs.Congruence
import ContractMeter.Proofs.Instrumented

/-!
# ContractMeter.Proofs.Ceiling

Runs with a low ceiling beside runs with a higher one.

* `Metered.Deepened` — the low ceiling changes nothing, or it stops the run on the way.
* `Metered.CutOff` — what the outcome and the records of the low run tell of the other.
* `Instrumenter.Deepens`, `node_deepened` — walks that start at the same depth are so related.
* `ceilings_decide_acceptance_only` — prices, prices of a pass through a loop, and walks.
-/

namespace ContractMeter

namespace Metered

/-- The two runs are the same, or a ceiling stops the first one after a part of what the second
one records. -/
inductive Deepened {α : Type} : Metered α → Metered α → Prop where
  | same (x : Metered α) : Deepened x x
  | stopped {l rest : Ledger} {limit : Option Int} {outcome : Except Failure α} :
      Deepened ⟨l, .error (.rejected (.tooDeep limit))⟩ ⟨l ++ rest, outcome⟩

section Deepened

variable {α β : Type} {x y : Metered α}

theorem Deepened.after {l : Ledger} (h : Deepened x y) :
    Deepened ⟨l ++ x.ledger, x.outcome⟩ ⟨l ++ y.ledger, y.outcome⟩ := by
  cases h with
  | same => exact .same _
  | stopped =>
    rw [← Ledger.append_assoc]
    exact .stopped

theorem Deepened.bind {f g : α → Metered β} (h : Deepened x y)
    (hf : ∀ a, Deepened (f a) (g a)) : Deepened (x >>= f) (y >>= g) := by
  cases h with
  | same =>
    obtain ⟨l, outcome⟩ := x
    cases outcome with
    | error failure => exact .same _
    | ok a => exact (hf a).after
  | @stopped l rest limit outcome =>
    cases outcome with
    | error failure => exact .stopped
    | ok a =>
      show Deepened ⟨l, .error (.rejected (.tooDeep limit))⟩
        ⟨l ++ rest ++ (g a).ledger, (g a).outcome⟩
      rw [Ledger.append_assoc]
      exact .stopped

/-- What a run yields below a low ceiling it yields below a higher one. -/
theorem Deepened.yields {l : Ledger} {a : α} (h : Deepened x y) (hx : x.Yields l a) :
    y.Yields l a := by
  cases h with
  | same => exact hx
  | stopped => cases hx

/-- Unless the low ceiling stops the first run, both are the same; if it does, what the first one
records begins what the second one records. -/
structure CutOff (low high : Metered α) : Prop where
  same : low.Avoids Rejection.isTooDeep → high = low
  begins : ¬ low.Avoids Rejection.isTooDeep →
    low.ledger.warnings <+: high.ledger.warnings ∧ low.ledger.charges <+: high.ledger.charges

theorem Deepened.cutOff (h : Deepened x y) : CutOff x y := by
  cases h with
  | same => exact ⟨fun _ => rfl, fun _ => ⟨List.prefix_rfl, List.prefix_rfl⟩⟩
  | stopped =>
    refine ⟨fun ha => ?_, fun _ => ⟨List.prefix_append _ _, List.prefix_append _ _⟩⟩
    have hr := ha _ rfl
    cases hr

end Deepened

end Metered

open Metered

theorem deepened_congruence : Congruence Deepened where
  silent := fun _ _ => .same _
  bind := Deepened.bind

theorem Ceilings.deepened {limit limit' : Int} {more : Nat} (h : limit' = limit + more) :
    Ceilings Deepened limit limit' more where
  eq := h
  stopped := fun _ _ _ _ => .stopped

namespace Pricing

/-- Pricings that differ in nothing but their ceilings. -/
theorem deepened_related {p p' : Pricing} (hs : p.strict = p'.strict)
    (h : p.maxDepth ≤ p'.maxDepth) :
    p.Related Deepened p' (p'.maxDepth - p.maxDepth).toNat := by
  refine ⟨fun kind => ?_, .deepened (by omega)⟩
  rw [unpriced, hs]
  exact .same _

end Pricing

namespace Instrumenter

/-- The two instrumenters differ in nothing but their ceilings, and that of the second one's walks
is `more` levels higher. -/
structure Deepens (m m' : Instrumenter) (more : Nat) : Prop where
  call : m.call = m'.call
  strict : m.pricing.strict = m'.pricing.strict
  pricing : m.pricing.maxDepth ≤ m'.pricing.maxDepth
  walk : m'.maxDepth = m.maxDepth + more

variable {m m' : Instrumenter} {more : Nat}

theorem Deepens.related (hm : m.Deepens m' more) : m.Related Deepened m' more where
  call := hm.call
  ceilings := .deepened hm.walk
  pricing := ⟨_, Pricing.deepened_related hm.strict hm.pricing⟩

theorem node_deepened (hm : m.Deepens m' more) (depth : Int) (v : Value) :
    Deepened (m.node depth v) (m'.node depth v) :=
  node_related deepened_congruence hm.related depth v

/-- The same instrumenter with such ceilings for prices and for walks. -/
def withCeilings (m : Instrumenter) (price walk : Int) : Instrumenter :=
  { m with pricing := { m.pricing with maxDepth := price }, maxDepth := walk }

theorem withCeilings_deepens (m : Instrumenter) {price price' walk walk' : Int}
    (hp : price ≤ price') (hw : walk ≤ walk') :
    (m.withCeilings price walk).Deepens (m.withCeilings price' walk')
      (walk' - walk).toNat where
  call := rfl
  strict := rfl
  pricing := hp
  walk := by
    show walk' = walk + ((walk' - walk).toNat : Nat)
    omega

theorem statements_deepened (hm : m.Deepens m' more) (tree : Value) :
    Deepened (m.statements tree) (m'.statements tree) :=
  statements_related deepened_congruence hm.related tree

end Instrumenter

/-- **Ceilings only decide acceptance.** At any depth, a price, the price of a pass through a loop
and a walk that no ceiling stops are what they are below any higher ceilings, with the same
warnings and charges; what a ceiling stops has recorded a part of what is recorded below higher
ones. -/
theorem ceilings_decide_acceptance_only (m : Instrumenter) {price price' walk walk' : Int}
    (hp : price ≤ price') (hw : walk ≤ walk') (depth : Int) (tree : Value) :
    CutOff ((m.withCeilings price walk).pricing.gammaFor depth tree)
      ((m.withCeilings price' walk').pricing.gammaFor depth tree) ∧
    CutOff ((m.withCeilings price walk).pricing.gammaPerIteration depth tree)
      ((m.withCeilings price' walk').pricing.gammaPerIteration depth tree) ∧
    CutOff ((m.withCeilings price walk).node depth tree)
      ((m.withCeilings price' walk').node depth tree) ∧
    CutOff ((m.withCeilings price walk).statements tree)
      ((m.withCeilings price' walk').statements tree) := by
  have hm := m.withCeilings_deepens hp hw
  have hpricing := Pricing.deepened_related hm.strict hm.pricing
  have hgamma := Pricing.gammaFor_related deepened_congruence hpricing depth tree
  have hpass := Pricing.gammaPerIteration_related deepened_congruence hpricing depth tree
  have hnode := Instrumenter.node_deepened hm depth tree
  have hstatements := Instrumenter.statements_deepened hm tree
  exact ⟨hgamma.cutOff, hpass.cutOff, hnode.cutOff, hstatements.cutOff⟩

/-- The body of a loop is too deep for a walk that has charged a statement and the loop by then. -/
theorem ceilings_decide_acceptance_only_of_loop :
    let tree := Sample.program [Sample.increment, Sample.whileLess Sample.increment]
    let low := Instrumenter.sample.withCeilings 20 2
    let high := Instrumenter.sample.withCeilings 30 20
    (low.node 0 tree).ledger.charges.length = 2 ∧
      (low.node 0 tree).ledger.charges <+: (high.node 0 tree).ledger.charges ∧
      high.pricing.gammaFor 0 tree = low.pricing.gammaFor 0 tree := by
  intro tree low high
  obtain ⟨hgamma, -, hnode, -⟩ := ceilings_decide_acceptance_only .sample
    (by decide : (20 : Int) ≤ 30) (by decide : (2 : Int) ≤ 20) 0 tree
  refine ⟨rfl, (hnode.begins fun h => ?_).2, hgamma.same fun _ h => nomatch h⟩
  have hr := h (.tooDeep (some 2)) rfl
  cases hr

end ContractMeter
