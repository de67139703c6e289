import ContractMeter.Proofs.Bookkeeping
import ContractMeter.Proofs.Toll

/-!
# ContractMeter.Proofs.Collection

What a walk collects: the tolls of its dues, or nothing.

* `Due.tolls` — the tolls of a statement, those of a pass through a loop.
* `Value.Chargeable` — trees with everything that the walk and its prices read.
* `Metered.Collects` — a run that no ceiling ends takes in what tolls come to, with a rule for each
  way to build it.
* `Instrumenter.nodeAt_collects` — walks collect the tolls of their dues, one lemma for each
  function.
* `tolls_decide_prices` — an operator without a price rejects the contract; nothing else does.
-/

namespace ContractMeter

open Instrumenter (block loopBody isUncharged)
open Metered

/-! ## The tolls of dues -/

def Due.tolls : Due → List Toll
  | .statement node => node.tolls
  | .pass loop => loop.passTolls

theorem Due.wellFormed_tolls {dues : List Due}
    (h : ∀ d ∈ dues, d.node.everywhere Value.isPriceable = true) :
    ∀ toll ∈ dues.flatMap Due.tolls, toll.WellFormed := by
  intro toll hm
  obtain ⟨d, hd, hm⟩ := List.mem_flatMap.mp hm
  cases d with
  | statement node => exact Value.wellFormed_tolls (h _ hd) toll hm
  | pass loop => exact Value.wellFormed_passTolls (h _ hd) toll hm

namespace Value

/-- Whether a record has the position and the cases that the walk reads. -/
def isWalkable (fields : Fields) : Bool :=
  hasPosition fields && holdsCases fields

/-- A tree with everything that the walk and its prices read. Names are not restricted, nor are
kinds to those with a rule. -/
structure Chargeable (v : Value) : Prop where
  lists : v.listShaped = true
  priceable : v.everywhere isPriceable = true
  walkable : v.everywhere isWalkable = true

section Chargeable

variable {v : Value} {fields : Fields} {items : List Value}

theorem chargeable_emptyBlock : (block (list [])).Chargeable :=
  ⟨rfl, rfl, rfl⟩

theorem Chargeable.get (h : (record fields).Chargeable) (key : String) :
    (Fields.get fields key).Chargeable :=
  ⟨everywhere_field h.lists key, everywhere_field h.priceable key, everywhere_field h.walkable key⟩

theorem Chargeable.item (h : (list items).Chargeable) (hv : v ∈ items) : v.Chargeable :=
  ⟨everywhere_mem h.lists hv, everywhere_mem h.priceable hv, everywhere_mem h.walkable hv⟩

theorem Chargeable.elements {key : String} (h : (record fields).Chargeable)
    (hf : isListOrAbsent (Fields.get? fields key) = true)
    (he : ((Fields.get? fields key).getD (.list [])).elements = .ok items) :
    ∀ item ∈ items, item.Chargeable := by
  rcases elements_of_isListOrAbsent hf he with ⟨-, rfl⟩ | hs
  · exact List.forall_mem_nil _
  · have hl := h.get key
    rw [Fields.get_of_get? hs] at hl
    exact fun item hm => hl.item hm

theorem Chargeable.line (h : v.Chargeable) : ∃ line, v.line = .ok line := by
  cases v with
  | record fields =>
    exact line_of_hasPosition (Bool.and_eq_true_iff.mp (check_of_everywhere h.walkable)).1
  | _ => exact ⟨.null, rfl⟩

/-- A kind may be compared, since prices look it up. -/
theorem Chargeable.comparable {kind : Value} (h : (record fields).Chargeable)
    (hk : Fields.get? fields "type" = some kind) : kind.comparable = true := by
  obtain ⟨hu, -⟩ := isPriceable_iff.mp (check_of_everywhere h.priceable)
  rw [Value.kind, field?_record, hk, Option.getD_some] at hu
  unfold usableKey at hu
  split at hu
  · cases hu
  · exact hu

theorem Chargeable.loopBody (h : (record fields).Chargeable) : (loopBody fields).Chargeable := by
  unfold Instrumenter.loopBody
  dsimp only
  split
  · exact h.get "body"
  · exact chargeable_emptyBlock

end Chargeable

/-! ### Checks of dues -/

section Checks

variable {check : Fields → Bool} {v : Value}

theorem ownDue_everywhere (h : v.everywhere check = true) :
    ∀ d ∈ v.ownDue, d.node.everywhere check = true := by
  unfold ownDue
  split
  · exact List.forall_mem_nil _
  · intro d hm
    cases List.mem_singleton.mp hm
    exact h

theorem partDue_everywhere (h : v.everywhere check = true) :
    ∀ d ∈ v.partDue, d.node.everywhere check = true := by
  unfold partDue
  split
  · exact List.forall_mem_nil _
  · split
    · exact List.forall_mem_nil _
    · exact ownDue_everywhere h

mutual

/-- What is due in a tree passes the checks that the tree passes. -/
theorem dues_everywhere : ∀ v : Value, v.everywhere check = true →
    ∀ d ∈ v.dues, d.node.everywhere check = true
  | .record fields, h => by
    have hpart (key : String) := dues_everywhere (Fields.get fields key) (everywhere_field h key)
    have hown (key : String) : ∀ d ∈ partDue (Fields.get fields key), _ :=
      partDue_everywhere (everywhere_field h key)
    rw [dues]
    cases (record fields).container with
    | sequence => exact sequenceDues_everywhere _ (everywhere_field h "body")
    | body => exact hpart "body"
    | loop =>
      refine List.forall_mem_cons.mpr ⟨h, ?_⟩
      split
      · exact List.forall_mem_append.mpr ⟨hpart "body", hown "body"⟩
      · exact List.forall_mem_nil _
    | statementBody => exact List.forall_mem_append.mpr ⟨hpart "body", hown "body"⟩
    | value => exact hpart "value"
    | branch =>
      exact List.forall_mem_append.mpr
        ⟨List.forall_mem_append.mpr ⟨hpart "consequent", hown "consequent"⟩,
          List.forall_mem_append.mpr ⟨hpart "alternate", hown "alternate"⟩⟩
    | attempt =>
      exact List.forall_mem_append.mpr
        ⟨hpart "block", List.forall_mem_append.mpr ⟨hpart "handler", hpart "finalizer"⟩⟩
    | switch => exact caseDues_everywhere _ (everywhere_field h "cases")
    | leaf => exact List.forall_mem_nil _
  | .null, _ | .bool _, _ | .int _, _ | .float _, _ | .text _, _ | .broken _, _ | .list _, _
  | .host _, _ => by simp [dues]
termination_by v => sizeOf v
decreasing_by all_goals exact Fields.sizeOf_get ..

theorem sequenceDues_everywhere : ∀ v : Value, v.everywhere check = true →
    ∀ d ∈ v.sequenceDues, d.node.everywhere check = true
  | .list items, h => by
    rw [sequenceDues]
    exact itemDues_everywhere items h
  | .null, _ | .bool _, _ | .int _, _ | .float _, _ | .text _, _ | .broken _, _ | .record _, _
  | .host _, _ => by simp [sequenceDues]
termination_by v => sizeOf v
decreasing_by simp

theorem itemDues_everywhere : ∀ items : List Value, (list items).everywhere check = true →
    ∀ d ∈ itemDues items, d.node.everywhere check = true
  | [], _ => by simp [itemDues]
  | item :: rest, h => by
    rw [everywhere_cons, Bool.and_eq_true] at h
    rw [itemDues]
    exact List.forall_mem_append.mpr
      ⟨List.forall_mem_append.mpr ⟨dues_everywhere item h.1, ownDue_everywhere h.1⟩,
        itemDues_everywhere rest h.2⟩
termination_by items => sizeOf items
decreasing_by all_goals simp <;> omega

theorem caseDues_everywhere : ∀ v : Value, v.everywhere check = true →
    ∀ d ∈ v.caseDues, d.node.everywhere check = true
  | .list cases, h => by
    rw [caseDues]
    exact caseItemDues_everywhere cases h
  | .null, _ | .bool _, _ | .int _, _ | .float _, _ | .text _, _ | .broken _, _ | .record _, _
  | .host _, _ => by simp [caseDues]
termination_by v => sizeOf v
decreasing_by simp

theorem caseItemDues_everywhere : ∀ cases : List Value, (list cases).everywhere check = true →
    ∀ d ∈ caseItemDues cases, d.node.everywhere check = true
  | [], _ => by simp [caseItemDues]
  | .record fields :: rest, h => by
    rw [everywhere_cons, Bool.and_eq_true] at h
    rw [caseItemDues]
    exact List.forall_mem_append.mpr
      ⟨sequenceDues_everywhere _ (everywhere_field h.1 "consequent"),
        caseItemDues_everywhere rest h.2⟩
  | .null :: rest, h | .bool _ :: rest, h | .int _ :: rest, h | .float _ :: rest, h
  | .text _ :: rest, h | .broken _ :: rest, h | .list _ :: rest, h | .host _ :: rest, h => by
    rw [everywhere_cons, Bool.and_eq_true] at h
    rw [caseItemDues]
    · exact caseItemDues_everywhere rest h.2
    · exact nofun
termination_by cases => sizeOf cases
decreasing_by
  · have := Fields.sizeOf_get fields "consequent"
    simp only [List.cons.sizeOf_spec]
    omega
  all_goals simp only [List.cons.sizeOf_spec]; omega

end

end Checks

end Value

/-! ## Takings -/

namespace Metered

/-- What a run that succeeds has charged in all. -/
def takings {α : Type} (x : Metered α) : Except Failure Int :=
  x.outcome.map fun _ => totalGamma x.ledger.charges

/-- A run that no ceiling ends takes in what tolls come to. -/
def Collects {α : Type} (x : Metered α) (tolls : List Toll) : Prop :=
  x.Stopped ∨ x.takings = (Toll.total tolls).map Nat.cast

theorem takings_bind {α β : Type} {x : Metered α} {f : α → Metered β} {l : Ledger} {a : α}
    (h : x.Yields l a) :
    (x >>= f).takings = (f a).takings.map fun rest => totalGamma l.charges + rest := by
  cases h
  show (f a).outcome.map (fun _ => totalGamma (l ++ (f a).ledger).charges) = _
  rw [Ledger.charges_append, totalGamma_append, takings]
  cases (f a).outcome <;> rfl

theorem Stopped.after {α β : Type} {x : Metered α} {f : α → Metered β} {l : Ledger} {a : α}
    (h : x.Yields l a) (hf : (f a).Stopped) : (x >>= f).Stopped := by
  obtain ⟨limit, ho⟩ := hf
  cases h
  exact ⟨limit, ho⟩

section Collects

variable {α β : Type} {x : Metered α} {f : α → Metered β} {front back tolls : List Toll}

theorem collects_pure (a : α) : (Metered.pure a).Collects [] :=
  .inr rfl

/-- Takings add up when one run follows another. -/
theorem Collects.bind (hx : x.Collects front) (hf : ∀ l a, x.Yields l a → (f a).Collects back) :
    (x >>= f).Collects (front ++ back) := by
  rcases hx with hx | hx
  · exact .inl hx.bind
  obtain ⟨l, outcome⟩ := x
  cases outcome with
  | error failure =>
    refine .inr ?_
    rw [Toll.total_append]
    cases ht : Toll.total front with
    | error failure' =>
      rw [ht] at hx
      cases hx
      rfl
    | ok n =>
      rw [ht] at hx
      cases hx
  | ok a =>
    rcases hf l a rfl with hb | hb
    · exact .inl (.after rfl hb)
    refine .inr ?_
    rw [takings_bind (l := l) rfl, hb, Toll.total_append]
    cases ht : Toll.total front with
    | error failure =>
      rw [ht] at hx
      cases hx
    | ok n =>
      rw [ht] at hx
      have hl : totalGamma l.charges = n := Except.ok.inj hx
      rw [hl]
      cases Toll.total back with
      | error failure => rfl
      | ok k => exact congrArg Except.ok (Int.natCast_add n k).symm

/-- A run may go on without charges. -/
theorem Collects.map {g : α → β} (hx : x.Collects tolls) :
    (x >>= fun a => Metered.pure (g a)).Collects tolls := by
  rw [← List.append_nil tolls]
  exact hx.bind fun _ a _ => collects_pure (g a)

theorem recordCharge_collects {v line : Value} (hl : v.line = .ok line) (gamma : Nat)
    (label : Option String) :
    ∃ l, (Instrumenter.recordCharge v gamma label).Yields l () ∧ totalGamma l.charges = gamma := by
  obtain ⟨entry, he⟩ : ∃ entry, Charge.of v gamma label = .ok entry := by
    unfold Charge.of
    rw [hl]
    cases label with
    | none => exact ⟨_, rfl⟩
    | some name => exact ⟨_, rfl⟩
  obtain ⟨-, hg, -⟩ := Charge.of_ok he
  refine ⟨_, recordCharge_yields.mpr ⟨entry, he, rfl⟩, ?_⟩
  rw [← hg]
  exact Int.add_zero _

/-- A price that is charged takes in what it comes to. -/
theorem Totals.charge {price : Metered Nat} {v line : Value} {label : Option String}
    {f : Nat → Metered β} (hp : price.Totals front)
    (hc : ∀ l gamma, price.Yields l gamma → l.charges = []) (hl : v.line = .ok line)
    (hf : ∀ gamma, (f gamma).Collects back) :
    (price >>= fun gamma => Instrumenter.recordCharge v gamma label >>= fun _ => f gamma).Collects
      (front ++ back) := by
  rcases hp with hp | hp
  · exact .inl hp.bind
  obtain ⟨l, outcome⟩ := price
  obtain rfl : outcome = Toll.total front := hp
  rw [Collects, Toll.total_append]
  cases hfront : Toll.total front with
  | error failure => exact .inr rfl
  | ok gamma =>
    rw [hfront] at hc
    obtain ⟨l', hy, hg⟩ := recordCharge_collects hl gamma label
    rcases hf gamma with hb | hb
    · exact .inl (.after rfl (.after hy hb))
    refine .inr ?_
    -- the price itself charges nothing, so only its record and what follows count
    rw [takings_bind (l := l) rfl, takings_bind hy, hb, hc l gamma rfl, hg]
    cases Toll.total back with
    | error failure => rfl
    | ok k =>
      refine congrArg Except.ok ?_
      rw [Int.natCast_add]
      exact Int.zero_add _

end Collects

end Metered

/-! ## Walks -/

namespace Instrumenter

variable {m : Instrumenter} {node sequence inner : Value → Metered Value} {start : Int}
  {v v' : Value} {fields : Fields} {l : Ledger}

/-- A walk over chargeable nodes that collects the tolls of their dues. -/
def NodeCollects (node : Value → Metered Value) : Prop :=
  ∀ ⦃v : Value⦄, v.Chargeable → (node v).Collects (v.dues.flatMap Due.tolls)

/-- A walk over lists of chargeable statements that collects the tolls of their dues. -/
def ListCollects (list : Value → Metered Value) : Prop :=
  ∀ ⦃items : List Value⦄, (∀ item ∈ items, item.Chargeable) →
    (list (.list items)).Collects ((Value.itemDues items).flatMap Due.tolls)

theorem charged_collects (hs : m.pricing.strict = false) (hv : v.Chargeable)
    (h : Instrumented m start v v' l) :
    (m.charged v').Collects (v.ownDue.flatMap Due.tolls) := by
  unfold charged Value.ownDue
  rw [h.isUncharged_eq]
  cases hu : isUncharged v with
  | true => exact collects_pure _
  | false =>
    obtain ⟨line, hl⟩ := hv.line
    rw [if_neg (by decide), if_neg (by decide), h.gammaFor_eq, List.flatMap_singleton,
      ← List.append_nil (Due.tolls _)]
    exact (Pricing.gammaAt_totals hs _ hv.priceable).charge
      (fun _ _ hy => Pricing.gammaFor_charges hy) (h.line_eq.trans hl) fun _ => collects_pure _

theorem chargeEach_collects {items : List Value} (hs : m.pricing.strict = false)
    (hsound : SoundNode m start node) (hn : NodeCollects node)
    (h : ∀ item ∈ items, item.Chargeable) :
    (m.chargeEach node items).Collects ((Value.itemDues items).flatMap Due.tolls) := by
  induction items with
  | nil =>
    rw [Value.itemDues]
    exact collects_pure _
  | cons item rest ih =>
    obtain ⟨hv, hrest⟩ := List.forall_mem_cons.mp h
    simp only [chargeEach, map_eq_bind]
    rw [Value.itemDues, List.flatMap_append, List.flatMap_append, List.append_assoc]
    exact (hn hv).bind fun _ _ hy =>
      (charged_collects hs hv (hsound hy)).bind fun _ _ _ => (ih hrest).map

theorem chargeElements_collects (hs : m.pricing.strict = false)
    (hsound : SoundNode m start node) (hn : NodeCollects node) :
    ListCollects (m.chargeElements node) :=
  fun _ h => (collects_pure _).bind fun _ _ hy => by
    obtain ⟨-, rfl⟩ := yields_pure.mp hy
    exact (chargeEach_collects hs hsound hn h).map

theorem collects_leaf (h : v.container = .leaf) :
    (Metered.pure v).Collects (v.dues.flatMap Due.tolls) := by
  rw [Value.dues_of_leaf h]
  exact collects_pure v

/-! ### The parts of a node -/

section Parts

/-- The statements of a list in a field. -/
theorem ListCollects.field {list : Value → Metered Value} {key : String} (hl : ListCollects list)
    (hv : (Value.record fields).Chargeable)
    (hf : Value.isListOrAbsent (Fields.get? fields key) = true) :
    (list ((Fields.get? fields key).getD (.list []))).Collects
      ((Value.sequenceDues (Fields.get fields key)).flatMap Due.tolls) := by
  obtain ⟨items, h⟩ := Value.getD_of_isListOrAbsent hf
  have he : ((Fields.get? fields key).getD (.list [])).elements = .ok items := by
    rw [h]
    rfl
  rw [Value.sequenceDues_eq hf he, h]
  exact hl (hv.elements hf he)

theorem statementPart_collects (hn : NodeCollects node) (hi : ListCollects inner)
    (hv : v.Chargeable) :
    (statementPart node inner v).Collects ((v.dues ++ v.partDue).flatMap Due.tolls) := by
  by_cases h0 : v = .null
  · subst h0
    have hnull := hn hv
    rwa [Value.partDue, List.append_nil]
  · rw [statementPart_of_ne_null h0]
    split
    · rename_i hk
      rw [Value.partDue_of_block hk, List.append_nil]
      exact hn hv
    · rename_i hk
      rw [Bool.not_eq_true] at hk
      have hb : (inner (.list [v])).Collects ((Value.itemDues [v]).flatMap Due.tolls) :=
        hi fun item hm => List.mem_singleton.mp hm ▸ hv
      rw [Value.itemDues, Value.itemDues, List.append_nil] at hb
      rw [Value.partDue_of_bare h0 hk]
      exact hb.map

theorem meterLoop_collects {depth : Int} {kind : String} (hs : m.pricing.strict = false)
    (hn : NodeCollects node) (hi : ListCollects inner) (hv : (Value.record fields).Chargeable) :
    (m.meterLoop node inner depth kind fields).Collects
      ((Due.pass (.record fields) :: if (Fields.get fields "body").truthy then
        (Fields.get fields "body").dues ++ (Fields.get fields "body").partDue
      else []).flatMap Due.tolls) := by
  obtain ⟨line, hl⟩ := hv.line
  rw [List.flatMap_cons, ← Value.dues_loopBody]
  exact (Pricing.gammaPerIteration_totals hs depth hv.priceable).charge
    (fun _ _ hy => Pricing.gammaPerIteration_charges hy) hl fun _ =>
      (statementPart_collects hn hi hv.loopBody).map

theorem eachCase_collects {cases : List Value} (hi : ListCollects inner)
    (h : ∀ c ∈ cases, c.isRecord = true ∧ c.Chargeable ∧
      Value.isListOrAbsent (c.field? "consequent") = true) :
    (eachCase inner cases).Collects ((Value.caseItemDues cases).flatMap Due.tolls) := by
  induction cases with
  | nil =>
    rw [Value.caseItemDues]
    exact collects_pure _
  | cons c rest ih =>
    obtain ⟨⟨hr, hv, hf⟩, hrest⟩ := List.forall_mem_cons.mp h
    cases c with
    | record fields =>
      simp only [eachCase, map_eq_bind]
      rw [Value.caseItemDues, List.flatMap_append]
      exact (hi.field hv hf).bind fun _ _ _ => (ih hrest).map
    | _ => cases hr

theorem switch_collects {cases : List Value} (hi : ListCollects inner)
    (hv : (Value.record fields).Chargeable) (hc : (Value.record fields).container = .switch)
    (h : ((Fields.get? fields "cases").getD (.list [])).elements = .ok cases) :
    (eachCase inner cases).Collects
      ((Value.caseDues (Fields.get fields "cases")).flatMap Due.tolls) := by
  obtain ⟨hl, -, hcs⟩ := Value.cases_of_listShaped hv.lists hc h
  have hrec := (Bool.and_eq_true_iff.mp (Value.check_of_everywhere hv.walkable)).2
  have hrec : ∀ c ∈ cases, c.isRecord = true := by
    rcases Value.elements_of_isListOrAbsent hl h with ⟨-, rfl⟩ | hw
    · exact List.forall_mem_nil _
    · simp only [Value.holdsCases, hc, bne_self_eq_false, Bool.false_or,
        Fields.get_of_get? hw] at hrec
      exact List.all_eq_true.mp hrec
  rw [Value.caseDues_eq hl h]
  exact eachCase_collects hi fun c hm => ⟨hrec c hm, hv.elements hl h c hm, hcs c hm⟩

theorem elements_collects {field : Option Value} (hf : Value.isListOrAbsent field = true) :
    (Metered.ofExcept (field.getD (.list [])).elements).Collects [] := by
  obtain ⟨items, h⟩ := Value.getD_of_isListOrAbsent hf
  rw [h]
  exact collects_pure items

theorem parts_collects {depth : Int} {kind : String} (hs : m.pricing.strict = false)
    (hn : NodeCollects node) (hq : ListCollects sequence) (hi : ListCollects inner)
    (hv : (Value.record fields).Chargeable)
    (hk : Fields.get? fields "type" = some (.text kind)) :
    (m.parts node sequence inner depth kind fields).Collects
      ((Value.record fields).dues.flatMap Due.tolls) := by
  have hc := Value.container_of_kind hk
  unfold parts
  rw [Value.dues, hc]
  cases hcont : Container.ofKind kind with
  | sequence =>
    exact (hq.field hv (Value.isListOrAbsent_body hv.lists (hc.trans hcont))).map
  | body => exact (hn (hv.get "body")).map
  | loop => exact meterLoop_collects hs hn hi hv
  | statementBody => exact (statementPart_collects hn hi (hv.get "body")).map
  | value => exact (hn (hv.get "value")).map
  | branch =>
    rw [List.flatMap_append]
    exact (statementPart_collects hn hi (hv.get "consequent")).bind fun _ _ _ =>
      (statementPart_collects hn hi (hv.get "alternate")).map
  | attempt =>
    rw [List.flatMap_append, List.flatMap_append]
    exact (hn (hv.get "block")).bind fun _ _ _ => (hn (hv.get "handler")).bind fun _ _ _ =>
      (hn (hv.get "finalizer")).map
  | switch =>
    have hc := hc.trans hcont
    exact (elements_collects (Value.isListOrAbsent_cases hv.lists hc)).bind fun _ _ hy =>
      (switch_collects hi hv hc (yields_ofExcept.mp hy).1).map
  | leaf => exact collects_pure _

end Parts

mutual

/-- A lenient walk over a chargeable tree collects the tolls of its dues. -/
theorem nodeAt_collects (hs : m.pricing.strict = false) : ∀ levels, NodeCollects (m.nodeAt levels)
  | 0 => fun _ _ => .inl ⟨_, rfl⟩
  | levels + 1 => by
    intro v hv
    cases v with
    | record fields =>
      rw [nodeAt]
      split
      · rename_i ht
        exact collects_leaf (Value.container_of_untyped fun kind e => nomatch ht.symm.trans e)
      · rename_i kind hk
        exact parts_collects hs (nodeAt_collects hs levels) (sequenceAt_collects hs levels)
          (innerSequenceAt_collects hs levels) hv hk
      · rename_i kind hne hk
        rw [if_pos (hv.comparable hk)]
        refine collects_leaf (Value.container_of_untyped fun name e => hne name ?_)
        exact Option.some.inj (hk.symm.trans e)
    | _ => exact collects_leaf rfl

theorem sequenceAt_collects (hs : m.pricing.strict = false) :
    ∀ levels, ListCollects (m.sequenceAt levels)
  | 0 => fun _ _ => .inl ⟨_, rfl⟩
  | levels + 1 =>
    chargeElements_collects hs (nodeAt_sound levels (Int.le_refl _)) (nodeAt_collects hs levels)

theorem innerSequenceAt_collects (hs : m.pricing.strict = false) :
    ∀ levels, ListCollects (m.innerSequenceAt levels)
  | 0 => fun _ _ => .inl ⟨_, rfl⟩
  | levels + 1 => sequenceAt_collects hs levels

end

end Instrumenter

/-! ## What decides -/

namespace Metered

variable {α : Type} {tolls : List Toll}

theorem Totals.decide {x : Metered Nat} (h : x.Totals tolls) (hu : x.Unstopped)
    (hw : ∀ toll ∈ tolls, toll.WellFormed) : Toll.Decide tolls (x.outcome.map Nat.cast) := by
  rw [h.resolve_left fun hx => hx.not_unstopped hu]
  exact Toll.decide_total hw

theorem Collects.decide {x : Metered α} (h : x.Collects tolls) (hu : x.Unstopped)
    (hw : ∀ toll ∈ tolls, toll.WellFormed) : Toll.Decide tolls x.takings := by
  rw [h.resolve_left fun hx => hx.not_unstopped hu]
  exact Toll.decide_total hw

end Metered

/-- **Price and rejection have one meaning.** Where pricing is lenient and no ceiling is reached, a
computation with strings as operators and literals that can be stored has a price if and only if
each operator that it is priced for is in the table. The price is then the sum of theirs and of the
bytes stored; otherwise the rejection names one of them that is not. The same holds for a pass
through a loop, and for a walk with all that it charges: it succeeds if and only if each operator
that a due is priced for is in the table. -/
theorem tolls_decide_prices {m : Instrumenter} (hs : m.pricing.strict = false) :
    (∀ (depth : Int) (v : Value), v.everywhere Value.isPriceable = true →
      (m.pricing.gammaFor depth v).Unstopped →
      Toll.Decide v.tolls ((m.pricing.gammaFor depth v).outcome.map Nat.cast)) ∧
    (∀ (depth : Int) (fields : Fields), (Value.record fields).everywhere Value.isPriceable = true →
      (m.pricing.gammaPerIteration depth (.record fields)).Unstopped →
      Toll.Decide (Value.record fields).passTolls
        ((m.pricing.gammaPerIteration depth (.record fields)).outcome.map Nat.cast)) ∧
    (∀ (depth : Int) (tree : Value), tree.Chargeable → (m.node depth tree).Unstopped →
      Toll.Decide (tree.dues.flatMap Due.tolls) (m.node depth tree).takings) ∧
    (∀ items : List Value, (Value.list items).Chargeable → (m.statements (.list items)).Unstopped →
      Toll.Decide ((Value.itemDues items).flatMap Due.tolls)
        (m.statements (.list items)).takings) := by
  refine ⟨fun depth v hv hu => ?_, fun depth fields hv hu => ?_, fun depth tree hv hu => ?_,
    fun items hv hu => ?_⟩
  · exact (Pricing.gammaAt_totals hs _ hv).decide hu (Value.wellFormed_tolls hv)
  · exact (Pricing.gammaPerIteration_totals hs depth hv).decide hu (Value.wellFormed_passTolls hv)
  · exact (Instrumenter.nodeAt_collects hs _ hv).decide hu
      (Due.wellFormed_tolls (Value.dues_everywhere tree hv.priceable))
  · exact (Instrumenter.sequenceAt_collects hs _ fun _ hm => hv.item hm).decide hu
      (Due.wellFormed_tolls (Value.itemDues_everywhere items hv.priceable))

/-- The program `for (var a = 'x'; a < b; a += c) { }`. -/
def Sample.storingLoop : Value :=
  program [Value.node "ForStatement" [
    ("init", Value.node "VariableDeclaration" [("declarations", .list [
      Value.node "VariableDeclarator" [("init", Value.node "Literal" [("value", .text "x")])]])]),
    ("test", less),
    ("update", Value.node "AssignmentExpression" [("operator", .text "+="),
      ("right", MeteringCall.identifier "c")]),
    ("body", block (.list []))]]

/-- The computation `a ** b`, whose operator is not in the table. -/
def Sample.power : Value :=
  Value.node "BinaryExpression" [("operator", .text "**")]

/-- A pass costs 2 and 3, entering the loop 2 and what three bytes cost. -/
theorem tolls_decide_prices_of_storingLoop :
    (Instrumenter.sample.node 0 Sample.storingLoop).takings = .ok 7507 ∧
      Toll.Decide (Sample.storingLoop.dues.flatMap Due.tolls)
        (Instrumenter.sample.node 0 Sample.storingLoop).takings ∧
      ∃ op, .operator op ∈ Sample.power.tolls ∧ tablePrice? op = none ∧
        (Instrumenter.sample.pricing.gammaFor 0 Sample.power).outcome =
          .error (.rejected (.operatorNotCosted op)) := by
  obtain ⟨hprice, -, hwalk, -⟩ := @tolls_decide_prices .sample rfl
  have hu : (Instrumenter.sample.pricing.gammaFor 0 Sample.power).Unstopped := by
    rintro _ ⟨⟩
    rfl
  obtain ⟨op, hm, hn, he⟩ := (hprice 0 Sample.power rfl hu).rejects _ rfl
  refine ⟨rfl, hwalk 0 _ ⟨rfl, rfl, rfl⟩ nofun, op, hm, hn, ?_⟩
  rw [← he]
  rfl

end ContractMeter
