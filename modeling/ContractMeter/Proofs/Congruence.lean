import ContractMeter.Proofs.Avoidance

/-!
# ContractMeter.Proofs.Congruence

Prices and walks under any relation of runs that sequencing keeps.

* `Metered.Congruence` — such a relation; a silent run stands in it to itself.
* `Ceilings` — a ceiling beside one so many levels higher, where the relation allows the lower one
  to stop a run.
* `Pricing.Related`, `gammaAt_related` — related pricings give related prices, level by level.
* `Instrumenter.Related`, `nodeAt_related` — and so do instrumenters with walks.
* `nodeAt_avoids` — a walk does not reject a contract for its source.
-/

namespace ContractMeter

namespace Metered

/-- A relation of runs that sequencing keeps, and in which a run stands to itself unless it warns
or rejects a contract for its source. -/
structure Congruence (R : ∀ {α : Type}, Metered α → Metered α → Prop) : Prop where
  silent : ∀ {α : Type} {x : Metered α}, x.ledger.warnings = [] →
    x.Avoids Rejection.isOfSource → R x x
  bind : ∀ {α β : Type} {x y : Metered α} {f g : α → Metered β}, R x y →
    (∀ a, R (f a) (g a)) → R (x >>= f) (y >>= g)

namespace Congruence

variable {R : ∀ {α : Type}, Metered α → Metered α → Prop} (hR : Congruence R) {α β : Type}

include hR

theorem pure (a : α) : R (.pure a) (.pure a) :=
  hR.silent rfl (avoids_pure a)

theorem fault (cause : Fault) : R (.fault cause : Metered α) (.fault cause) :=
  hR.silent rfl (avoids_fault cause)

theorem ofExcept (e : Except Fault α) : R (.ofExcept e) (.ofExcept e) := by
  cases e with
  | ok a => exact hR.pure a
  | error cause => exact hR.fault cause

theorem map {x y : Metered α} (h : R x y) (f : α → β) : R (x.map f) (y.map f) := by
  rw [map_eq_bind, map_eq_bind]
  exact hR.bind h fun a => hR.pure (f a)

end Congruence

end Metered

open Metered

section Ceilings

variable {R : ∀ {α : Type}, Metered α → Metered α → Prop} {limit limit' : Int} {more : Nat}

/-- The second ceiling is so many levels higher, and a run that the first one stops is related to
whatever that run is with the levels between the two. -/
structure Ceilings (R : ∀ {α : Type}, Metered α → Metered α → Prop) (limit limit' : Int)
    (more : Nat) : Prop where
  eq : limit' = limit + more
  stopped : ∀ {α : Type} (y : Nat → Metered α) {k : Nat}, k ≤ more →
    y 0 = .reject (.tooDeep (some limit')) → R (.reject (.tooDeep (some limit))) (y k)

theorem Metered.Congruence.ceilings (hR : Congruence R) (limit : Int) :
    Ceilings R limit limit 0 where
  eq := (Int.add_zero limit).symm
  stopped := by
    intro α y k hk hy
    obtain rfl : k = 0 := Nat.le_zero.mp hk
    rw [hy]
    exact hR.silent rfl (avoids_reject rfl)

/-- At any depth the higher ceiling leaves no more than so many levels more, and all of them if the
lower one leaves any. -/
theorem Ceilings.levels (h : Ceilings R limit limit' more) (depth : Int) :
    ∃ k ≤ more, levelsLeft limit' depth = k + levelsLeft limit depth ∧
      (levelsLeft limit depth ≠ 0 → k = more) := by
  have he := h.eq
  unfold levelsLeft
  refine ⟨(limit' + 1 - depth).toNat - (limit + 1 - depth).toNat, ?_, ?_, ?_⟩ <;> omega

end Ceilings

/-! ## Prices -/

namespace Pricing

section Parts

variable {R : ∀ {α : Type}, Metered α → Metered α → Prop} (hR : Congruence R)

include hR

theorem settled_related {e : Except Failure Nat}
    (h : (settled e).Avoids Rejection.isOfSource) : R (settled e) (settled e) := by
  refine hR.silent ?_ h
  cases e <;> rfl

theorem assignedOperator_related (operator : Value) :
    R (assignedOperator operator) (assignedOperator operator) := by
  refine hR.silent ?_ (assignedOperator_avoids Rejection.isOfSource_of_isUnpriced operator)
  unfold assignedOperator
  split
  · rfl
  · split
    · rename_i shortened _
      cases gammaForOperator shortened <;> rfl
    · rfl

theorem required_related (node : Value) (name : String) :
    R (required node name) (required node name) := by
  unfold required
  split
  · exact hR.pure _
  · exact hR.fault _

variable {price price' : Value → Metered Nat} (h : ∀ v, R (price v) (price' v))

include h

theorem sumOf_related (items : List Value) : R (sumOf price items) (sumOf price' items) := by
  induction items with
  | nil => exact hR.pure 0
  | cons item rest ih => exact hR.bind (h item) fun first => hR.map ih (first + ·)

theorem optional_related (part : Value) : R (optional price part) (optional price' part) := by
  unfold optional
  split
  · exact hR.pure 0
  · exact h part

theorem initial_related (init : Value) : R (initial price init) (initial price' init) := by
  unfold initial
  split
  · exact hR.pure 0
  · split
    · exact settled_related hR (settled_literal_avoids Rejection.isOfSource_of_isUnpriced _)
    · exact h init

theorem byRule_related {p p' : Pricing} (hu : ∀ kind, R (p.unpriced kind) (p'.unpriced kind))
    (rule : PriceRule) (node : Value) :
    R (p.byRule price rule node) (p'.byRule price' rule node) := by
  have hop := optional_related hR h
  cases rule with
  | free => exact hR.pure 0
  | operator =>
    exact hR.bind (required_related hR node _) fun _ =>
      settled_related hR (settled_operator_avoids Rejection.isOfSource_of_isUnpriced _)
  | expression => exact hR.bind (required_related hR node _) h
  | argument | test => exact hop _
  | declarations => exact h _
  | declarator => exact initial_related hR h _
  | assignment =>
    exact hR.bind (h _) fun _ => hR.bind (assignedOperator_related hR _) fun _ => hR.pure _
  | testAndInit => exact hR.bind (hop _) fun _ => hR.bind (hop _) fun _ => hR.pure _
  | unpriced => exact hu _

end Parts

/-- Pricings with related answers to a kind that has no rule, and with such ceilings. -/
structure Related (R : ∀ {α : Type}, Metered α → Metered α → Prop) (p p' : Pricing) (more : Nat) :
    Prop where
  unpriced : ∀ kind, R (p.unpriced kind) (p'.unpriced kind)
  ceilings : Ceilings R p.maxDepth p'.maxDepth more

variable {R : ∀ {α : Type}, Metered α → Metered α → Prop} (hR : Congruence R) {p p' : Pricing}
  {more k : Nat} (hp : p.Related R p' more)

include hR hp

theorem gammaAt_related (hk : k ≤ more) (levels : Nat) (v : Value) :
    R (p.gammaAt levels v) (p'.gammaAt (k + levels) v) := by
  induction levels generalizing v with
  | zero => exact hp.ceilings.stopped (fun n => p'.gammaAt n v) hk rfl
  | succ levels ih =>
    rw [← Nat.add_assoc]
    by_cases hv : ∃ items, v = .list items
    · obtain ⟨items, rfl⟩ := hv
      exact sumOf_related hR ih items
    · have hv : ∀ items, v ≠ .list items := fun items e => hv ⟨items, e⟩
      rw [gammaAt_succ hv, gammaAt_succ hv]
      split
      · exact byRule_related hR ih hp.unpriced _ v
      · split
        · exact hp.unpriced _
        · exact hR.fault _

theorem gammaFor_related (depth : Int) (v : Value) :
    R (p.gammaFor depth v) (p'.gammaFor depth v) := by
  obtain ⟨k, hk, hl, -⟩ := hp.ceilings.levels depth
  unfold gammaFor
  rw [hl]
  exact gammaAt_related hR hp hk _ v

theorem gammaPerIteration_related (depth : Int) (loop : Value) :
    R (p.gammaPerIteration depth loop) (p'.gammaPerIteration depth loop) := by
  obtain ⟨k, hk, hl, -⟩ := hp.ceilings.levels depth
  unfold gammaPerIteration
  rw [hl]
  cases levelsLeft p.maxDepth depth with
  | zero => exact hp.ceilings.stopped (fun n => p'.gammaPerIterationAt n loop) hk rfl
  | succ levels =>
    cases loop with
    | record fields =>
      have hop := optional_related hR (gammaAt_related hR hp hk levels)
      exact hR.bind (hop _) fun _ => hR.bind (hop _) fun _ => hR.pure _
    | _ => exact hR.fault _

end Pricing

/-! ## Walks -/

namespace Instrumenter

/-- Instrumenters that place the same charges, with related prices and with such ceilings. -/
structure Related (R : ∀ {α : Type}, Metered α → Metered α → Prop) (m m' : Instrumenter)
    (more : Nat) : Prop where
  call : m.call = m'.call
  pricing : ∃ more, m.pricing.Related R m'.pricing more
  ceilings : Ceilings R m.maxDepth m'.maxDepth more

variable {R : ∀ {α : Type}, Metered α → Metered α → Prop} (hR : Congruence R)
  {m m' : Instrumenter} {more : Nat} (hm : m.Related R m' more)

section Parts

include hR in
theorem recordCharge_related (statement : Value) (gamma : Nat) (label : Option String) :
    R (recordCharge statement gamma label) (recordCharge statement gamma label) :=
  hR.bind (hR.ofExcept _) fun _ => hR.silent rfl fun _ h => nomatch h

include hm in
theorem charge_of_related (gamma : Nat) : m.charge gamma = m'.charge gamma := by
  rw [charge, charge, hm.call]

include hR hm in
theorem charged_related (statement : Value) : R (m.charged statement) (m'.charged statement) := by
  obtain ⟨_, hp⟩ := hm.pricing
  unfold charged
  split
  · exact hR.pure _
  · refine hR.bind (Pricing.gammaFor_related hR hp 0 statement) fun gamma => ?_
    rw [charge_of_related hm]
    exact hR.bind (recordCharge_related hR ..) fun _ => hR.pure _

variable {node node' inner inner' sequence sequence' : Value → Metered Value}
  (hn : ∀ v, R (node v) (node' v)) (hi : ∀ v, R (inner v) (inner' v))
  (hs : ∀ v, R (sequence v) (sequence' v))

include hR hm hn in
theorem chargeEach_related (items : List Value) :
    R (m.chargeEach node items) (m'.chargeEach node' items) := by
  induction items with
  | nil => exact hR.pure []
  | cons item rest ih =>
    exact hR.bind (hn item) fun statement => hR.bind (charged_related hR hm statement)
      fun placed => hR.map ih (placed ++ ·)

include hR hm hn in
theorem chargeElements_related (statements : Value) :
    R (m.chargeElements node statements) (m'.chargeElements node' statements) :=
  hR.bind (hR.ofExcept _) fun items => hR.bind (chargeEach_related hR hm hn items) fun _ =>
    hR.pure _

include hR hn hi in
theorem statementPart_related (part : Value) :
    R (statementPart node inner part) (statementPart node' inner' part) := by
  unfold statementPart
  split
  · exact hn .null
  · split
    · exact hn part
    · exact hR.bind (hi _) fun _ => hR.pure _

include hR hi in
theorem eachCase_related (cases : List Value) :
    R (eachCase inner cases) (eachCase inner' cases) := by
  induction cases with
  | nil => exact hR.pure []
  | cons c rest ih =>
    cases c with
    | record fields =>
      exact hR.bind (hi _) fun consequent => hR.map ih
        (.record (Fields.set fields "consequent" consequent) :: ·)
    | _ => exact hR.fault _

include hR hm hn hi in
theorem meterLoop_related (depth : Int) (kind : String) (fields : Fields) :
    R (m.meterLoop node inner depth kind fields) (m'.meterLoop node' inner' depth kind fields) := by
  obtain ⟨_, hp⟩ := hm.pricing
  refine hR.bind (Pricing.gammaPerIteration_related hR hp depth _) fun gamma => ?_
  refine hR.bind (recordCharge_related hR ..) fun _ => ?_
  refine hR.bind (statementPart_related hR hn hi _) fun body => ?_
  rw [charge_of_related hm]
  exact hR.pure _

include hR hm hn hi hs in
theorem parts_related (depth : Int) (kind : String) (fields : Fields) :
    R (m.parts node sequence inner depth kind fields)
      (m'.parts node' sequence' inner' depth kind fields) := by
  have hp := statementPart_related hR hn hi
  unfold parts
  cases Container.ofKind kind with
  | sequence => exact hR.bind (hs _) fun _ => hR.pure _
  | body | value => exact hR.bind (hn _) fun _ => hR.pure _
  | loop => exact meterLoop_related hR hm hn hi depth kind fields
  | statementBody => exact hR.bind (hp _) fun _ => hR.pure _
  | branch => exact hR.bind (hp _) fun _ => hR.bind (hp _) fun _ => hR.pure _
  | attempt =>
    exact hR.bind (hn _) fun _ => hR.bind (hn _) fun _ => hR.bind (hn _) fun _ => hR.pure _
  | switch =>
    exact hR.bind (hR.ofExcept _) fun cases => hR.bind (eachCase_related hR hi cases) fun _ =>
      hR.pure _
  | leaf => exact hR.pure _

end Parts

mutual

theorem nodeAt_related (hR : Congruence R) (hm : m.Related R m' more) :
    ∀ (levels : Nat) (v : Value), R (m.nodeAt levels v) (m'.nodeAt (more + levels) v)
  | 0, v => hm.ceilings.stopped (fun n => m'.nodeAt n v) (Nat.le_refl more) rfl
  | levels + 1, .record fields => by
    -- the depth of a part is the same in both walks
    have hd : m.maxDepth - levels + 1 = m'.maxDepth - ((more + levels : Nat) : Int) + 1 := by
      rw [hm.ceilings.eq]
      omega
    rw [← Nat.add_assoc, nodeAt, nodeAt, hd]
    split
    · exact hR.pure _
    · exact parts_related hR hm (nodeAt_related hR hm levels) (innerSequenceAt_related hR hm levels)
        (sequenceAt_related hR hm levels) _ _ fields
    · split
      · exact hR.pure _
      · exact hR.fault _
  | _ + 1, .null | _ + 1, .bool _ | _ + 1, .int _ | _ + 1, .float _ | _ + 1, .text _
  | _ + 1, .broken _ | _ + 1, .list _ | _ + 1, .host _ => hR.pure _

theorem sequenceAt_related (hR : Congruence R) (hm : m.Related R m' more) :
    ∀ (levels : Nat) (v : Value), R (m.sequenceAt levels v) (m'.sequenceAt (more + levels) v)
  | 0, v => hm.ceilings.stopped (fun n => m'.sequenceAt n v) (Nat.le_refl more) rfl
  | levels + 1, v => chargeElements_related hR hm (nodeAt_related hR hm levels) v

theorem innerSequenceAt_related (hR : Congruence R) (hm : m.Related R m' more) :
    ∀ (levels : Nat) (v : Value),
      R (m.innerSequenceAt levels v) (m'.innerSequenceAt (more + levels) v)
  | 0, v => hm.ceilings.stopped (fun n => m'.innerSequenceAt n v) (Nat.le_refl more) rfl
  | levels + 1, v => sequenceAt_related hR hm levels v

end

include hR hm in
theorem node_related (depth : Int) (v : Value) : R (m.node depth v) (m'.node depth v) := by
  obtain ⟨k, hk, hl, hmore⟩ := hm.ceilings.levels depth
  unfold node
  rw [hl]
  cases hlevels : levelsLeft m.maxDepth depth with
  | zero => exact hm.ceilings.stopped (fun n => m'.nodeAt n v) hk rfl
  | succ levels =>
    rw [hmore (by omega)]
    exact nodeAt_related hR hm _ v

include hR hm in
theorem statements_related (tree : Value) : R (m.statements tree) (m'.statements tree) := by
  cases tree with
  | list items =>
    obtain ⟨k, hk, hl, hmore⟩ := hm.ceilings.levels 0
    unfold statements
    dsimp only
    rw [hl]
    cases hlevels : levelsLeft m.maxDepth 0 with
    | zero => exact hm.ceilings.stopped (fun n => m'.sequenceAt n (.list items)) hk rfl
    | succ levels =>
      rw [hmore (by omega)]
      exact sequenceAt_related hR hm _ _
  | _ => exact node_related hR hm 0 _

/-- A walk does not reject a contract for its source. -/
theorem nodeAt_avoids (m : Instrumenter) (levels : Nat) (v : Value) :
    (m.nodeAt levels v).Avoids Rejection.isOfSource := by
  have hR : Congruence fun x _ => x.Avoids Rejection.isOfSource :=
    ⟨fun _ h => h, fun h hf => h.bind fun _ a _ => hf a⟩
  have hm : m.Related (fun x _ => x.Avoids Rejection.isOfSource) m 0 :=
    ⟨rfl, ⟨0, fun _ => Pricing.unpriced_avoids Rejection.isOfSource_of_isUnpriced _,
      hR.ceilings _⟩, hR.ceilings _⟩
  exact nodeAt_related hR hm levels v

end Instrumenter

end ContractMeter
