import ContractMeter.Proofs.Commutation
import ContractMeter.Proofs.PriceFault

/-!
# ContractMeter.Proofs.Verdict

Which faults can end a compilation, which then is no verdict on the contract.

* `View.along_node_of_pricesInto`, `View.along_node_of_repeats` — where a price leads that the walk
  asks for.
* `Instrumenter.nodeAt_faults` — walks fault on literals alone, one lemma for each function.
* `compile_faults_only_on_literals` — so do compilations, and none that succeeds stores a literal
  without bytes.
-/

namespace ContractMeter

open Instrumenter (block loopBody isUncharged)
open Metered

/-! ## Walks -/

namespace View

variable {v w : Value} {edge : Edge} {name : String}

theorem slot_of_not_statementField {c : Container} (h : name ∉ statementFields) :
    c.slot name = .direct .kept := by
  unfold Container.slot
  split <;> first | rfl | exact absurd (by decide) h

theorem not_statementField_of_parts {rule : PriceRule} (h : rule.parts.contains name = true) :
    name ∉ statementFields := by
  have hp : ∀ name ∈ rule.parts, name ∉ statementFields := by cases rule <;> decide
  exact hp name (List.contains_iff_mem.mp h)

theorem along_node_kept (h : name ∉ statementFields) :
    (Place.node.along v (.field name)).2 = .kept := by
  rw [Place.along, slot_of_not_statementField h]
  rfl

/-- The walk enters no part that a price is made of. -/
theorem along_node_of_pricesInto (h : v.pricesInto edge = true) :
    (entered .node true).along v edge = priced := by
  have hk : (Place.node.along v edge).2 = .kept := by
    cases edge with
    | item i => rfl
    | field name => exact along_node_kept (not_statementField_of_parts h)
  rw [along_kept hk, h]
  rfl

theorem along_node_of_repeats {charged : Bool} (h : v.repeats edge = true) :
    (entered .node charged).along v edge = priced := by
  have hk : (Place.node.along v edge).2 = .kept := by
    simp only [Value.repeats, Bool.and_eq_true, Bool.or_eq_true, beq_iff_eq] at h
    obtain ⟨-, rfl | rfl⟩ := h <;> exact along_node_kept (by decide)
  rw [along_kept hk, h]
  simp

/-- What stands ahead of a list makes no difference to its items. -/
theorem follow_list {a b : Nat} {charged : Bool} (path : Path) :
    ((entered (.list a) charged).follow v path).isPriced =
      ((entered (.list b) charged).follow v path).isPriced := by
  cases path with
  | nil => rfl
  | cons edge rest =>
    have he : (entered (.list a) charged).along v edge =
        (entered (.list b) charged).along v edge := by
      cases v with
      | list items => cases edge <;> rfl
      | _ => cases edge <;> rfl
    rw [follow, follow, he]

theorem along_node_field {charged : Bool} :
    (entered .node charged).along v (.field name) =
      if ((v.container.slot name).enter name (v.field name)).2 = .kept then
        if charged && v.pricesInto (.field name) || v.repeats (.field name) then priced else unseen
      else entered ((v.container.slot name).enter name (v.field name)).2
        (Place.node.charges v (.field name)) := by
  rfl

/-- Of a sequence that is not charged, only the statements are in view. -/
theorem along_sequence (hc : v.container = .sequence) (h : edge ≠ .field "body") :
    (entered .node false).along v edge = unseen := by
  have hk : (Place.node.along v edge).2 = .kept := by
    cases edge with
    | item i => rfl
    | field name =>
      have hn : name ≠ "body" := fun e => h (congrArg _ e)
      rw [Place.along, hc]
      unfold Container.slot
      split <;> first | rfl | contradiction
  rw [along_kept hk, Value.repeats, hc]
  rfl

end View

namespace Value

variable {v w : Value} {fault : Fault}

/-- A view causes what another one does if, behind each edge, prices come to all that they come to
in the other. -/
theorem Unstored.widen {view view' : View} (h : v.Unstored view fault)
    (hroot : view.isPriced = true → view'.isPriced = true)
    (hedge : ∀ edge w path, ((view.along v edge).follow w path).isPriced = true →
      ((view'.along v edge).follow w path).isPriced = true) : v.Unstored view' fault := by
  obtain ⟨path, literal, ⟨w, hw, hp, hd⟩, he⟩ := h
  refine ⟨path, literal, ⟨w, hw, ?_, hd⟩, he⟩
  cases path with
  | nil => exact hroot hp
  | cons edge rest =>
    rw [View.follow] at hp ⊢
    cases hc : v.child? edge with
    | none =>
      rw [hc] at hp
      cases hp
    | some u =>
      rw [hc] at hp
      exact hedge edge u rest hp

/-- A charged node is priced where a price of it comes. -/
theorem Unstored.charged (h : v.Unstored .priced fault) :
    v.Unstored (.entered .node true) fault := by
  refine h.widen (fun _ => rfl) fun edge w path hp => ?_
  by_cases hi : v.pricesInto edge = true
  · rw [View.along_node_of_pricesInto hi]
    rwa [View.along_priced hi] at hp
  · have hu : View.priced.along v edge = .unseen := if_neg hi
    rw [hu, View.follow_unseen] at hp
    cases hp

/-- A block that a loop runs differs from any other only in the charge ahead. -/
theorem Unstored.pass {charged : Bool} (hk : v.hasKind "BlockStatement" = true)
    (h : v.Unstored (.entered .node false) fault) : v.Unstored (.entered .pass charged) fault := by
  have hc : v.container = .sequence := container_of_hasKind hk
  refine h.widen nofun fun edge w path hp => ?_
  -- the pass charge shifts the statements, which no price depends on
  by_cases hb : edge = .field "body"
  · subst hb
    have hn : (View.entered .node false).along v (.field "body") = .entered (.list 0) false := by
      simp [View.along_node_field, hc, Container.slot, Slot.enter, Place.charges]
    have hs : (View.entered .pass charged).along v (.field "body") = .entered (.list 1) false := rfl
    rw [hn, View.follow_list (b := 1)] at hp
    rwa [hs]
  · rw [View.along_sequence hc hb, View.follow_unseen] at hp
    cases hp

end Value

namespace Instrumenter

variable {m : Instrumenter} {node sequence inner : Value → Metered Value} {start : Int}
  {cause : Fault → Prop} {v v' : Value} {fields : Fields} {l : Ledger}

/-- A walk over well-formed nodes that faults only on literals. -/
def NodeFaults (node : Value → Metered Value) : Prop :=
  ∀ ⦃v : Value⦄, v.WellFormed → ∀ charged,
    (node v).FaultsOnly (v.Unstored (.entered .node charged))

/-- What a list of charged statements may fault for. -/
def StatementCauses (items : List Value) (cause : Fault → Prop) : Prop :=
  ∀ item ∈ items, item.WellFormed ∧
    ∀ fault, item.Unstored (.entered .node (!isUncharged item)) fault → cause fault

/-- A walk over lists of well-formed statements that faults only on literals. -/
def ListFaults (list : Value → Metered Value) : Prop :=
  ∀ ⦃items : List Value⦄ ⦃cause : Fault → Prop⦄, StatementCauses items cause →
    (list (.list items)).FaultsOnly cause

theorem statementCauses_nil : StatementCauses [] cause :=
  fun _ hm => nomatch hm

theorem recordCharge_faults {gamma : Nat} {label : Option String} {line : Value}
    (h : v.line = .ok line) : (recordCharge v gamma label).FaultsOnly cause := by
  unfold recordCharge Charge.of
  rw [h]
  cases label with
  | none => exact fun _ ho => nomatch ho
  | some name => exact fun _ ho => nomatch ho

theorem charged_faults (hv : v.WellFormed) (h : Instrumented m start v v' l) :
    (m.charged v').FaultsOnly (v.Unstored (.entered .node (!isUncharged v))) := by
  unfold charged
  rw [h.isUncharged_eq]
  cases hu : isUncharged v with
  | true => exact faultsOnly_pure _
  | false =>
    have hg : m.pricing.gammaFor 0 v' = m.pricing.gammaFor 0 v := h.gammaAt_eq _ _
    obtain ⟨line, hl⟩ := hv.line
    rw [if_neg (by decide), hg]
    refine FaultsOnly.bind ?_ fun _ gamma _ => ?_
    · exact (Pricing.gammaAt_faults _ hv).mono fun _ hf => hf.charged
    · exact (recordCharge_faults (h.line_eq.trans hl)).bind fun _ _ _ => faultsOnly_pure _

theorem chargeEach_faults {items : List Value} (hs : SoundNode m start node)
    (hn : NodeFaults node) (h : StatementCauses items cause) :
    (m.chargeEach node items).FaultsOnly cause := by
  induction items with
  | nil => exact faultsOnly_pure _
  | cons item rest ih =>
    obtain ⟨⟨hv, hc⟩, hr⟩ := List.forall_mem_cons.mp h
    refine ((hn hv _).mono hc).bind fun _ _ hy => ?_
    exact ((charged_faults hv (hs hy)).mono hc).bind fun _ _ _ => (ih hr).map

theorem chargeElements_faults (hs : SoundNode m start node) (hn : NodeFaults node) :
    ListFaults (m.chargeElements node) := by
  intro items cause h
  refine (faultsOnly_pure items).bind fun _ _ hy => ?_
  obtain ⟨-, rfl⟩ := yields_pure.mp hy
  exact (chargeEach_faults hs hn h).bind fun _ _ _ => faultsOnly_pure _

/-! ### The parts of a node -/

section Parts

variable {name : String} {charged : Bool}

theorem NodeFaults.get (hn : NodeFaults node) (hv : (Value.record fields).WellFormed)
    (hs : (Value.record fields).container.slot name = .direct .node) :
    (node (Fields.get fields name)).FaultsOnly
      ((Value.record fields).Unstored (.entered .node charged)) := by
  refine Value.get_of (P := fun w => (node w).FaultsOnly _) ?_ fun w hw => ?_
  · exact (hn Value.wellFormed_null false).undeclared rfl
  · have hc : (Value.record fields).child? (.field name) = some w := hw
    refine (hn (hv.child? hc) false).mono fun fault hu => .child hc ?_
    rw [View.along_node_field, hs]
    simpa [Slot.enter, Place.charges, hs] using hu

theorem unstored_item {items : List Value} {view : View} {i ahead : Nat} {fault : Fault}
    (hi : items[i]? = some v) (hp : view.place = .list ahead)
    (h : v.Unstored (.entered .node (!isUncharged v)) fault) :
    (Value.list items).Unstored view fault := by
  have hc : (Value.list items).child? (.item i) = some v := hi
  refine .child hc ?_
  cases view with
  | entered place _ =>
    obtain rfl : place = .list ahead := hp
    simpa [View.along, Place.along, Place.charges, hi] using h
  | _ => cases hp

/-- The statements of a list in a field that the walk enters as one. -/
theorem ListFaults.getD {list : Value → Metered Value} {view : View} (hl : ListFaults list)
    (ahead : Nat) (hv : (Value.record fields).WellFormed)
    (hf : Value.isListOrAbsent (Fields.get? fields name) = true)
    (hp : (view.along (.record fields) (.field name)).place = .list ahead) :
    (list ((Fields.get? fields name).getD (.list []))).FaultsOnly
      ((Value.record fields).Unstored view) := by
  cases hw : Fields.get? fields name with
  | none => exact hl statementCauses_nil
  | some w =>
    rw [hw] at hf
    have hc : (Value.record fields).child? (.field name) = some w := hw
    cases w with
    | list items =>
      refine hl fun item hm => ⟨(hv.child? hc).item hm, fun fault hu => ?_⟩
      obtain ⟨i, hi⟩ := List.mem_iff_getElem?.mp hm
      exact .child hc (unstored_item hi hp hu)
    | _ => cases hf

theorem statementPart_faults {place : Place} {ahead : Nat} (hn : NodeFaults node)
    (hi : ListFaults inner) (hv : (Value.record fields).WellFormed)
    (hs : (Value.record fields).container.slot name = .part place ahead)
    (hp : place = .node ∨ place = .pass) :
    (statementPart node inner (Fields.get fields name)).FaultsOnly
      ((Value.record fields).Unstored (.entered .node charged)) := by
  have hnull : (statementPart node inner .null).FaultsOnly
      ((Value.record fields).Unstored (.entered .node charged)) :=
    (hn Value.wellFormed_null false).undeclared rfl
  refine Value.get_of (P := fun part => (statementPart node inner part).FaultsOnly _) hnull
    fun part hw => ?_
  by_cases h0 : part = .null
  · rwa [h0]
  · have hg : Fields.get fields name = part := Fields.get_of_get? hw
    have hc : (Value.record fields).child? (.field name) = some part := hw
    rw [statementPart_of_ne_null h0]
    split
    · rename_i hk
      refine (hn (hv.child? hc) false).mono fun fault hu => .child hc ?_
      rw [View.along_node_field, hs, Value.field_record, hg, Slot.enter, if_pos hk]
      rcases hp with rfl | rfl
      · simpa [Place.charges, hs, hg, hk] using hu
      · rw [if_neg (by simp)]
        exact hu.pass hk
    · rename_i hk
      rw [Bool.not_eq_true] at hk
      refine (hi fun item hm => ?_).bind fun _ _ _ => faultsOnly_pure _
      obtain rfl := List.mem_singleton.mp hm
      refine ⟨hv.child? hc, fun fault hu => .child hc ?_⟩
      rw [View.along_node_field, hs, Value.field_record, hg, Slot.enter, hk]
      simpa [Place.charges, hs, hg, hk] using hu

theorem gammaPerIteration_faults {depth : Int} (hv : (Value.record fields).WellFormed)
    (hc : (Value.record fields).container = .loop) :
    (m.pricing.gammaPerIteration depth (.record fields)).FaultsOnly
      ((Value.record fields).Unstored (.entered .node charged)) := by
  unfold Pricing.gammaPerIteration
  cases levelsLeft m.pricing.maxDepth depth with
  | zero => exact faultsOnly_reject _
  | succ levels =>
    have hpart {name : String} (hn : name = "test" ∨ name = "update") :
        (Pricing.optional (m.pricing.gammaAt levels) (Fields.get fields name)).FaultsOnly
          ((Value.record fields).Unstored (.entered .node charged)) := by
      refine Value.get_of (P := fun part => (Pricing.optional _ part).FaultsOnly _)
        (faultsOnly_pure 0) fun part hw => Pricing.optional_faults fun _ => ?_
      have hr : (Value.record fields).repeats (.field name) = true := by
        rcases hn with rfl | rfl <;> simp [Value.repeats, hc]
      have hchild : (Value.record fields).child? (.field name) = some part := hw
      refine (Pricing.gammaAt_faults levels (hv.child? hchild)).mono fun fault hu =>
        .child hchild ?_
      rwa [View.along_node_of_repeats hr]
    exact (hpart (.inl rfl)).bind fun _ _ _ => (hpart (.inr rfl)).bind fun _ _ _ =>
      faultsOnly_pure _

theorem meterLoop_faults {depth : Int} {kind : String} (hn : NodeFaults node)
    (hi : ListFaults inner) (hv : (Value.record fields).WellFormed)
    (hc : (Value.record fields).container = .loop) :
    (m.meterLoop node inner depth kind fields).FaultsOnly
      ((Value.record fields).Unstored (.entered .node charged)) := by
  obtain ⟨line, hl⟩ := hv.line
  refine (gammaPerIteration_faults hv hc).bind fun _ _ _ =>
    (recordCharge_faults hl).bind fun _ _ _ => FaultsOnly.bind ?_ fun _ _ _ => faultsOnly_pure _
  unfold loopBody
  dsimp only
  split
  · exact statementPart_faults hn hi hv (by rw [hc]; rfl) (.inr rfl)
  · exact (hn Value.wellFormed_emptyBlock false).undeclared rfl

theorem eachCase_faults {cases : List Value} (hi : ListFaults inner)
    (h : ∀ c ∈ cases, c.isRecord = true ∧ c.WellFormed ∧
      Value.isListOrAbsent (c.field? "consequent") = true ∧
      ∀ fault, c.Unstored (.entered .case false) fault → cause fault) :
    (eachCase inner cases).FaultsOnly cause := by
  induction cases with
  | nil => exact faultsOnly_pure _
  | cons c rest ih =>
    obtain ⟨⟨hr, hv, hf, hc⟩, hrest⟩ := List.forall_mem_cons.mp h
    cases c with
    | record fields =>
      refine ((hi.getD 0 hv hf rfl).mono hc).bind fun _ _ _ => (ih hrest).map
    | _ => cases hr

theorem elements_faults {field : Option Value} (hf : Value.isListOrAbsent field = true) :
    (Metered.ofExcept (field.getD (.list [])).elements).FaultsOnly cause := by
  obtain ⟨items, h⟩ := Value.getD_of_isListOrAbsent hf
  rw [h]
  exact faultsOnly_pure items

theorem switch_faults {cases : List Value} (hi : ListFaults inner)
    (hv : (Value.record fields).WellFormed) (hc : (Value.record fields).container = .switch)
    (h : ((Fields.get? fields "cases").getD (.list [])).elements = .ok cases) :
    (eachCase inner cases).FaultsOnly
      ((Value.record fields).Unstored (.entered .node charged)) := by
  have hrec := hv.isReadable.2.2.2
  simp only [Value.holdsCases, hc, bne_self_eq_false, Bool.false_or] at hrec
  obtain ⟨hl, -, hcs⟩ := Value.cases_of_listShaped hv.lists hc h
  rcases Value.elements_of_isListOrAbsent hl h with ⟨-, rfl⟩ | hw
  · exact faultsOnly_pure _
  · have hchild : (Value.record fields).child? (.field "cases") = some (.list cases) := hw
    rw [Fields.get_of_get? hw] at hrec
    refine eachCase_faults hi fun c hm => ⟨List.all_eq_true.mp hrec c hm,
      (hv.child? hchild).item hm, hcs c hm, fun fault hu => ?_⟩
    obtain ⟨i, hitem⟩ := List.mem_iff_getElem?.mp hm
    have hc' : (Value.list cases).child? (.item i) = some c := hitem
    refine .child hchild (.child hc' ?_)
    rw [View.along_node_field, hc]
    exact hu

theorem parts_faults {depth : Int} {kind : String} (hn : NodeFaults node)
    (hs : ListFaults sequence) (hi : ListFaults inner) (hv : (Value.record fields).WellFormed)
    (hk : Fields.get? fields "type" = some (.text kind)) :
    (m.parts node sequence inner depth kind fields).FaultsOnly
      ((Value.record fields).Unstored (.entered .node charged)) := by
  have hc := Value.container_of_kind hk
  unfold parts
  cases hcont : Container.ofKind kind with
  | sequence =>
    rw [hcont] at hc
    refine (hs.getD 0 hv (Value.isListOrAbsent_body hv.lists hc) ?_).bind
      fun _ _ _ => faultsOnly_pure _
    rw [View.along_node_field, hc]
    rfl
  | body | value =>
    rw [hcont] at hc
    exact (hn.get hv (by rw [hc]; rfl)).bind fun _ _ _ => faultsOnly_pure _
  | loop =>
    rw [hcont] at hc
    exact meterLoop_faults hn hi hv hc
  | statementBody =>
    rw [hcont] at hc
    exact (statementPart_faults hn hi hv (by rw [hc]; rfl) (.inl rfl)).bind
      fun _ _ _ => faultsOnly_pure _
  | branch =>
    rw [hcont] at hc
    exact (statementPart_faults hn hi hv (by rw [hc]; rfl) (.inl rfl)).bind fun _ _ _ =>
      (statementPart_faults hn hi hv (by rw [hc]; rfl) (.inl rfl)).bind fun _ _ _ =>
        faultsOnly_pure _
  | attempt =>
    rw [hcont] at hc
    exact (hn.get hv (by rw [hc]; rfl)).bind fun _ _ _ =>
      (hn.get hv (by rw [hc]; rfl)).bind fun _ _ _ =>
        (hn.get hv (by rw [hc]; rfl)).bind fun _ _ _ => faultsOnly_pure _
  | switch =>
    rw [hcont] at hc
    refine (elements_faults (Value.isListOrAbsent_cases hv.lists hc)).bind fun _ _ hy => ?_
    exact (switch_faults hi hv hc (yields_ofExcept.mp hy).1).bind fun _ _ _ => faultsOnly_pure _
  | leaf => exact faultsOnly_pure _

end Parts

mutual

/-- A walk over a well-formed tree faults only on a literal that a price comes to. -/
theorem nodeAt_faults : ∀ levels, NodeFaults (m.nodeAt levels)
  | 0 => fun _ _ _ => faultsOnly_reject _
  | levels + 1 => by
    intro v hv charged
    cases v with
    | record fields =>
      rw [nodeAt]
      split
      · exact faultsOnly_pure _
      · rename_i kind hk
        exact parts_faults (nodeAt_faults levels) (sequenceAt_faults levels)
          (innerSequenceAt_faults levels) hv hk
      · rename_i kind _ hk
        have hs := Value.check_of_everywhere hv.steady.kinds
        rw [Value.hasStringKind, hk] at hs
        have hcomp : kind.comparable = true := by
          cases kind with
          | text _ | broken _ => rfl
          | _ => cases hs
        rw [if_pos hcomp]
        exact faultsOnly_pure _
    | _ => exact faultsOnly_pure _

theorem sequenceAt_faults : ∀ levels, ListFaults (m.sequenceAt levels)
  | 0 => fun _ _ _ => faultsOnly_reject _
  | levels + 1 =>
    chargeElements_faults (nodeAt_sound levels (Int.le_refl _)) (nodeAt_faults levels)

theorem innerSequenceAt_faults : ∀ levels, ListFaults (m.innerSequenceAt levels)
  | 0 => fun _ _ _ => faultsOnly_reject _
  | levels + 1 => sequenceAt_faults levels

end

end Instrumenter

/-! ## Compilations -/

theorem encodeLiteral_fault {literal : Value} {fault : Fault}
    (h : encodeLiteral literal = .error (.faulted fault)) :
    fault = .hugeInteger ∨ fault = .unencodable := by
  unfold encodeLiteral at h
  dsimp only at h
  split at h
  · cases h
  · cases h
    exact .inl rfl
  · split at h
    · cases h
    · cases h
      exact .inr rfl

namespace Pricing

variable {p : Pricing} {v : Value} {literal : Value}

/-- A declarator has a price only if its literal can be stored. -/
theorem Priced.encodes (h : p.Priced v) (hd : v.declared? = some literal) :
    ∃ text, encodeLiteral literal = .ok text := by
  unfold Value.declared? at hd
  split at hd
  · rename_i hk
    rw [Bool.and_eq_true] at hk
    obtain ⟨hk, hl⟩ := hk
    cases hd
    rcases h with rfl | hlit | ⟨n, l, g, hy⟩
    · cases hk
    · rw [Value.hasKind_of_ne hlit (by decide)] at hk
      cases hk
    · cases n with
      | zero => simp [gammaAt, tooDeep] at hy
      | succ n =>
        have hf := Value.hasKind_iff.mp hk
        have hi : v.field "init" ≠ .null := by
          intro e
          rw [e] at hl
          cases hl
        rw [gammaAt_succ (by rintro items rfl; cases hf)] at hy
        have hrule : PriceRule.ofKind "VariableDeclarator" = .declarator := rfl
        simp only [Value.kind, hf, Option.getD_some, hrule, byRule, initial_of_ne_null hi, hl,
          if_true, gammaForLiteral] at hy
        cases he : encodeLiteral (declaredLiteral (v.field "init")) with
        | ok text => exact ⟨text, rfl⟩
        | error failure =>
          rw [he] at hy
          cases hy
  · cases hd

end Pricing

section Pipeline

variable {s : Sanitizer} {m : Instrumenter} {tree out : Value}

theorem Instrumenter.encodes_of_ok {path : Path} {literal : Value} (hl : tree.listShaped = true)
    (h : (m.node 0 tree).outcome = .ok out)
    (hs : tree.Stores (.entered .node false) path literal) :
    ∃ text, encodeLiteral literal = .ok text := by
  obtain ⟨w, hw, hp, hd⟩ := hs
  have hroot : (View.entered .node false).Holds m tree out :=
    ⟨⟨_, node_sound (outcome_ok_iff.mp h)⟩, fun e => nomatch e⟩
  have ht : w.truthy = true := by
    cases w with
    | record fields =>
      cases fields with
      | nil => cases hd
      | cons field rest => rfl
    | _ => cases hd
  obtain ⟨w', -, hv⟩ := hroot.follow hl hw ht
  have hpriced : m.pricing.Priced w := by
    revert hp hv
    cases (View.entered .node false).follow tree path with
    | entered place charged => exact fun hc hv => hv.2 hc
    | priced => exact fun _ hv => hv.2
    | unseen => exact fun hc => nomatch hc
  exact hpriced.encodes hd

/-- Renaming before metering stops at its ceiling, or the metering runs as it would on the tree
itself. -/
theorem renameThen_parallel (hv : tree.Steady) (hh : m.call.host = s.host) :
    (renameThen s (m.node 0) tree).outcome =
        .error (.rejected (.tooDeep (some s.maxDepth))) ∨
      Parallel s.Renames (m.node 0 tree) (renameThen s (m.node 0) tree) := by
  by_cases hs : s.sanitize 0 tree = .error (.rejected (.tooDeep (some s.maxDepth)))
  · refine .inl ?_
    unfold renameThen
    rw [hs]
    rfl
  · refine .inr ?_
    rw [renameThen_of_ok (Sanitizer.sanitize_of_names hv.names hs)]
    exact Instrumenter.nodeAt_respects hh (levelsLeft m.maxDepth 0) hv

end Pipeline

/-- **Accept or reject, but for literals without bytes**: a compilation of a well-formed tree ends
with a fault only if a price comes to a declared literal whose storing faults, which an integer too
long and a string without encoding do; and it succeeds only if every declared literal that a price
comes to has its bytes. -/
theorem compile_faults_only_on_literals {parse : Parser} {settings : Settings}
    {options : CompileOptions} {source : String} {tree : Value}
    (hp : parse true source = .ok tree) (hv : tree.WellFormed) :
    (∀ fault, (compile parse settings options source).outcome = .error (.faulted fault) →
      (fault = .hugeInteger ∨ fault = .unencodable) ∧
      ∃ path literal, tree.Stores (.entered .node false) path literal ∧
        encodeLiteral literal = .error (.faulted fault)) ∧
    (∀ result, (compile parse settings options source).outcome = .ok result →
      ∀ path literal, tree.Stores (.entered .node false) path literal →
        ∃ text, encodeLiteral literal = .ok text) := by
  cases hlarge : settings.sourceTooLarge? source with
  | some reason =>
    have ho : (compile parse settings options source).outcome = .error (.rejected reason) := by
      simp only [compile, hlarge]
    rw [ho]
    exact ⟨nofun, nofun⟩
  | none =>
    rw [compile_outcome hlarge hp]
    generalize hm : settings.instrumenter (options.strict || settings.strict) = m
    have hh : m.call.host = settings.sanitizer.host := by
      rw [← hm]
      rfl
    rcases renameThen_parallel hv.steady hh with hdeep | hpar
    · rw [Compilation.ofRun, hdeep]
      exact ⟨nofun, nofun⟩
    -- the renamed tree is walked as the tree itself is, whose literals the paths lead to
    · have hfaults := Instrumenter.nodeAt_faults (m := m) (levelsLeft m.maxDepth 0) hv false
      have hencodes := @Instrumenter.encodes_of_ok m tree
      rw [← Instrumenter.node] at hfaults
      generalize renameThen settings.sanitizer (m.node 0) tree = run at hpar ⊢
      generalize m.node 0 tree = plain at hpar hfaults hencodes
      cases hpar with
      | error =>
        refine ⟨fun fault h => ?_, nofun⟩
        cases h
        obtain ⟨path, literal, hs, he⟩ := hfaults fault rfl
        exact ⟨encodeLiteral_fault he, path, literal, hs, he⟩
      | ok h => exact ⟨nofun, fun _ _ _ _ hs => hencodes hv.lists rfl hs⟩

/-- The declaration `var a = literal;`. -/
def Sample.declaration (literal : Value) : Value :=
  Sample.program [Value.node "VariableDeclaration" [("declarations", .list [
    Value.node "VariableDeclarator" [("id", MeteringCall.identifier "a"),
      ("init", Value.node "Literal" [("value", literal)])]])]]

theorem compile_faults_only_on_literals_of_text :
    ∃ text, encodeLiteral (.text "x") = .ok text := by
  have hv : (Sample.declaration (.text "x")).WellFormed := ⟨⟨rfl, rfl, rfl⟩, rfl, rfl⟩
  have h := @compile_faults_only_on_literals (fun _ _ => .ok (Sample.declaration (.text "x"))) {} {}
    "var a = 'x';" _ rfl hv
  exact h.2 _ rfl [.field "body", .item 0, .field "declarations", .item 0] _ ⟨_, rfl, rfl, rfl⟩

/-- Half of a surrogate pair, as `'\ud800'` denotes it. -/
def halfPair : BrokenText := ⟨[.surrogate ⟨0, Nat.zero_lt_succ 2047⟩], rfl⟩

/-- A declared string without encoding is no reason to reject the contract: compiling it faults. -/
theorem halfPair_faults :
    (Sample.declaration (.broken halfPair)).WellFormed ∧
      (compile (fun _ _ => .ok (Sample.declaration (.broken halfPair))) {} {}
        "var a = '\\ud800';").outcome = .error (.faulted .unencodable) :=
  ⟨⟨⟨rfl, rfl, rfl⟩, rfl, rfl⟩, rfl⟩

end ContractMeter
