import ContractMeter.Proofs.PriceFault

/-!
# ContractMeter.Proofs.Location

Trees without the positions of their nodes.

* `Value.unlocated` — the tree without positions; `Value.get?_unlocatedRecord` and
  `Value.unlocatedRecord_set` read and write its records.
* `Value.Positioned` — the positions are those of a parser, and literals store no nodes.
* `Value.Legible` — and no located node stands where the statements of a list are read.
* `Value.elements_unlocated`, `chargeOf_unlocated` — what a list yields and what a charge
  records stay the same, but for the line.
-/

namespace ContractMeter

open Instrumenter (block prepend loopBody isUncharged)

namespace Value

mutual

/-- The tree in which no node has a position. -/
def unlocated : Value → Value
  | .list items => .list (unlocatedItems items)
  | .record fields => .record (unlocatedFields (record fields).isNode fields)
  | v => v

def unlocatedItems : List Value → List Value
  | [] => []
  | item :: rest => unlocated item :: unlocatedItems rest

/-- The fields of a record, of a node those but its position. -/
def unlocatedFields (isNode : Bool) : List (String × Value) → List (String × Value)
  | [] => []
  | (key, v) :: rest =>
    if isNode && key == "loc" then unlocatedFields isNode rest
    else (key, unlocated v) :: unlocatedFields isNode rest

end

/-- The fields of a record in the tree without positions. -/
def unlocatedRecord (fields : Fields) : Fields :=
  unlocatedFields (record fields).isNode fields

section Equations

variable {v : Value} {fields : Fields} {key : String}

theorem unlocatedItems_eq_map (items : List Value) :
    unlocatedItems items = items.map unlocated := by
  induction items with
  | nil => rw [unlocatedItems, List.map_nil]
  | cons item rest ih => rw [unlocatedItems, List.map_cons, ih]

@[simp]
theorem unlocated_list (items : List Value) :
    (list items).unlocated = .list (items.map unlocated) := by
  rw [unlocated, unlocatedItems_eq_map]

@[simp]
theorem unlocated_record (fields : Fields) :
    (record fields).unlocated = .record (unlocatedRecord fields) := by
  rw [unlocated, unlocatedRecord]

@[simp]
theorem unlocated_null : null.unlocated = .null := by
  simp [unlocated]

theorem unlocated_of_isString (h : v.isString = true) : v.unlocated = v := by
  cases v with
  | text _ | broken _ => simp [unlocated]
  | _ => cases h

theorem unlocated_eq_null_iff : v.unlocated = .null ↔ v = .null := by
  cases v with
  | list _ | record _ => simp
  | _ => simp [unlocated]

theorem unlocated_eq_text_iff {t : String} : v.unlocated = .text t ↔ v = .text t := by
  cases v with
  | list _ | record _ => simp
  | _ => simp [unlocated]

/-! ### Reading and writing -/

theorem get?_unlocatedFields (isNode : Bool) (fields : Fields) (key : String) :
    Fields.get? (unlocatedFields isNode fields) key =
      if isNode && key == "loc" then none else (Fields.get? fields key).map unlocated := by
  induction fields with
  | nil => simp [unlocatedFields, Fields.get?]
  | cons field rest ih =>
    obtain ⟨k, v⟩ := field
    rw [unlocatedFields, Fields.get?_cons]
    by_cases hk : key = k
    · subst hk
      by_cases hl : (isNode && key == "loc") = true
      · rw [if_pos hl, ih, if_pos hl, if_pos hl]
      · rw [if_neg hl, Fields.get?_cons, if_pos rfl, if_neg hl, if_pos rfl, Option.map_some]
    · rw [if_neg hk]
      split
      · exact ih
      · rw [Fields.get?_cons, if_neg hk, ih]

theorem get?_unlocatedRecord (hk : key ≠ "loc") :
    Fields.get? (unlocatedRecord fields) key = (Fields.get? fields key).map unlocated := by
  rw [unlocatedRecord, get?_unlocatedFields, beq_false_of_ne hk, Bool.and_false]
  rfl

theorem get_unlocatedRecord (hk : key ≠ "loc") :
    Fields.get (unlocatedRecord fields) key = (Fields.get fields key).unlocated := by
  rw [Fields.get, Fields.get, get?_unlocatedRecord hk]
  cases Fields.get? fields key with
  | none => simp
  | some v => rfl

theorem getD_unlocatedRecord (hk : key ≠ "loc") :
    (Fields.get? (unlocatedRecord fields) key).getD (.list []) =
      ((Fields.get? fields key).getD (.list [])).unlocated := by
  rw [get?_unlocatedRecord hk]
  cases Fields.get? fields key with
  | none => simp
  | some v => rfl

theorem isNode_unlocatedRecord :
    (record (unlocatedRecord fields)).isNode = (record fields).isNode := by
  rw [isNode, isNode, field?_record, field?_record, get?_unlocatedRecord (by decide)]
  exact Option.isSome_map ..

theorem unlocatedFields_set (isNode : Bool) (fields : Fields) (v : Value) (hk : key ≠ "loc") :
    unlocatedFields isNode (Fields.set fields key v) =
      Fields.set (unlocatedFields isNode fields) key v.unlocated := by
  have hl : (isNode && key == "loc") = false := by rw [beq_false_of_ne hk, Bool.and_false]
  induction fields with
  | nil => simp [Fields.set, unlocatedFields, hk]
  | cons field rest ih =>
    obtain ⟨k, w⟩ := field
    rw [Fields.set, unlocatedFields]
    by_cases he : k = key
    · subst he
      rw [if_pos rfl, hl, unlocatedFields, hl]
      simp [Fields.set]
    · rw [if_neg he, unlocatedFields, ih]
      split
      · rfl
      · rw [Fields.set, if_neg he]

theorem isNode_set (hk : key ≠ "type") :
    (record (Fields.set fields key v)).isNode = (record fields).isNode := by
  rw [isNode, isNode, field?_record, field?_record, Fields.get?_set_of_ne hk.symm]

theorem unlocatedRecord_set (hl : key ≠ "loc") (ht : key ≠ "type") :
    unlocatedRecord (Fields.set fields key v) =
      Fields.set (unlocatedRecord fields) key v.unlocated := by
  rw [unlocatedRecord, isNode_set ht, unlocatedFields_set _ _ _ hl, unlocatedRecord]

/-! ### What stays the same -/

theorem hasKind_unlocated (v : Value) (name : String) :
    v.unlocated.hasKind name = v.hasKind name := by
  cases v with
  | record fields =>
    rw [Bool.eq_iff_iff, hasKind_iff, hasKind_iff, unlocated_record, field?_record, field?_record,
      get?_unlocatedRecord (by decide)]
    cases Fields.get? fields "type" with
    | none => simp
    | some t => simpa using unlocated_eq_text_iff
  | list items => rw [unlocated_list]; rfl
  | _ => simp [unlocated]

theorem container_unlocated (v : Value) : v.unlocated.container = v.container := by
  by_cases h : ∃ kind, v.hasKind kind = true
  · obtain ⟨kind, hk⟩ := h
    rw [container_of_hasKind hk, container_of_hasKind ((hasKind_unlocated v kind).trans hk)]
  · simp only [not_exists, Bool.not_eq_true] at h
    rw [container_of_not_hasKind h,
      container_of_not_hasKind fun kind => (hasKind_unlocated v kind).trans (h kind)]

theorem isUncharged_unlocated (v : Value) : isUncharged v.unlocated = isUncharged v := by
  unfold isUncharged
  rw [funext (hasKind_unlocated v)]

theorem unlocatedRecord_eq_nil_iff : unlocatedRecord fields = [] ↔ fields = [] := by
  constructor
  · intro h
    cases hn : (record fields).isNode with
    | true =>
      -- the kind of a node is not its position
      have ht := hn
      rw [← isNode_unlocatedRecord, h] at ht
      cases ht
    | false =>
      rw [unlocatedRecord, hn] at h
      cases fields with
      | nil => rfl
      | cons field rest => simp [unlocatedFields] at h
  · rintro rfl
    simp [unlocatedRecord, unlocatedFields]

theorem truthy_unlocated (v : Value) : v.unlocated.truthy = v.truthy := by
  cases v with
  | list items => cases items <;> simp [truthy]
  | record fields =>
    have h : (unlocatedRecord fields).isEmpty = fields.isEmpty := by
      rw [Bool.eq_iff_iff, List.isEmpty_iff, List.isEmpty_iff, unlocatedRecord_eq_nil_iff]
    rw [unlocated_record, truthy, truthy, h]
  | _ => simp [unlocated]

theorem comparable_unlocated (v : Value) : v.unlocated.comparable = v.comparable := by
  cases v with
  | list _ | record _ => simp [comparable]
  | _ => simp [unlocated]

theorem isText_unlocated (v : Value) (t : String) : v.unlocated.isText t = v.isText t := by
  cases v with
  | list _ | record _ => simp [isText]
  | _ => simp [unlocated]

theorem items_unlocated (v : Value) : v.unlocated.items = v.items.map unlocated := by
  cases v with
  | list items => rw [unlocated_list]; rfl
  | record fields => rw [unlocated_record]; rfl
  | _ => simp [unlocated, Value.items]

theorem field_unlocated (v : Value) (hk : key ≠ "loc") :
    v.unlocated.field key = (v.field key).unlocated := by
  cases v with
  | record fields =>
    rw [unlocated_record, field_record, field_record, get_unlocatedRecord hk]
  | list items => simp [field, field?]
  | _ => simp [unlocated, field, field?]

theorem unlocated_block (statements : Value) :
    (block statements).unlocated = block statements.unlocated := by
  simp [block, unlocatedRecord, unlocatedFields, unlocated]

theorem loopBody_unlocatedRecord (fields : Fields) :
    loopBody (unlocatedRecord fields) = (loopBody fields).unlocated := by
  unfold loopBody
  dsimp only
  rw [get_unlocatedRecord (by decide), truthy_unlocated]
  split
  · rfl
  · rw [unlocated_block, unlocated_list, List.map_nil]

end Equations

/-! ## Positioned trees -/

def isInteger : Value → Bool
  | .int _ => true
  | _ => false

/-- A record of integers, as the start or end of a position. -/
def isPoint : Value → Bool
  | .record fields => fields.all fun field => field.2.isInteger
  | _ => false

/-- A position as a parser attaches it, a record of points. -/
def isLocation : Value → Bool
  | .record fields => fields.all fun field => field.2.isPoint
  | _ => false

/-- Whether the position of a record, if it is a node with one, is a parser's. -/
def hasLocation (fields : Fields) : Bool :=
  !(record fields).isNode || fields.all fun field => field.1 != "loc" || field.2.isLocation

/-- Whether there is no node in a tree. -/
def holdsNoNodes (v : Value) : Bool :=
  v.everywhere fun fields => !(record fields).isNode

/-- Whether there is no node in what a literal stores. -/
def storesNoNodes (fields : Fields) : Bool :=
  !(record fields).hasKind "Literal" ||
    (Fields.get fields "value").holdsNoNodes && (Fields.get fields "regex").holdsNoNodes

def isPositioned (fields : Fields) : Bool :=
  hasLocation fields && storesNoNodes fields

/-- A tree whose positions are those of a parser and whose literals store no nodes. -/
def Positioned (v : Value) : Prop :=
  v.everywhere isPositioned = true

/-- Whether a value is a node with a position. -/
def isLocated (v : Value) : Bool :=
  v.isNode && (v.field? "loc").isSome

/-- Whether no located node stands where the record reads the statements of a list. -/
def readsLists (fields : Fields) : Bool :=
  match (record fields).container with
  | .sequence => !(Fields.get fields "body").isLocated
  | .switch => (Fields.get fields "cases").items.all fun c => !(c.field "consequent").isLocated
  | _ => true

section Positioned

variable {v w : Value} {fields : Fields} {key : String}

theorem Positioned.child? {edge : Edge} (h : v.Positioned) (hw : v.child? edge = some w) :
    w.Positioned :=
  everywhere_child? h hw

theorem Positioned.get? (h : (record fields).Positioned) (hw : Fields.get? fields key = some w) :
    w.Positioned := by
  have hc : (record fields).child? (.field key) = some w := hw
  exact h.child? hc

theorem Positioned.mem (h : (record fields).Positioned) : ∀ field ∈ fields, field.2.Positioned := by
  simp only [Positioned, everywhere, Bool.and_eq_true] at h
  obtain ⟨-, hf⟩ := h
  induction fields with
  | nil => exact fun _ hm => nomatch hm
  | cons field rest ih =>
    obtain ⟨k, u⟩ := field
    rw [everywhereFields, Bool.and_eq_true] at hf
    exact List.forall_mem_cons.mpr ⟨hf.1, ih hf.2⟩

theorem Positioned.get (h : (record fields).Positioned) (key : String) :
    (Fields.get fields key).Positioned :=
  everywhere_field h key

theorem positioned_list {items : List Value} :
    (list items).Positioned ↔ ∀ v ∈ items, v.Positioned := by
  unfold Positioned
  induction items with
  | nil => simp
  | cons item rest ih => rw [everywhere_cons, Bool.and_eq_true, ih, List.forall_mem_cons]

theorem Positioned.getD (h : (record fields).Positioned) (key : String) :
    ((Fields.get? fields key).getD (.list [])).Positioned := by
  cases hf : Fields.get? fields key with
  | none => rfl
  | some v => exact h.get? hf

theorem Positioned.items (h : v.Positioned) : ∀ w ∈ v.items, w.Positioned := by
  cases v with
  | list items => exact positioned_list.mp h
  | _ => exact fun _ hw => nomatch hw

theorem positioned_of_isString (h : v.isString = true) : v.Positioned :=
  everywhere_of_isString h

theorem Positioned.elements {items : List Value} (h : v.Positioned)
    (he : v.elements = .ok items) :
    ∀ w ∈ items, w.Positioned := by
  by_cases hv : ∃ items, v = .list items
  · obtain ⟨items, rfl⟩ := hv
    cases he
    exact positioned_list.mp h
  · have hv : ∀ items, v ≠ .list items := fun items e => hv ⟨items, e⟩
    exact fun w hw => positioned_of_isString (isString_of_elements hv he w hw)

/-- A check that any value of a field passes is not changed by writing it. -/
theorem all_set {p : String × Value → Bool} (fields : Fields) (key : String) (v : Value)
    (hp : ∀ w, p (key, w) = true) : (Fields.set fields key v).all p = fields.all p := by
  induction fields with
  | nil => simp [Fields.set, hp]
  | cons field rest ih =>
    obtain ⟨k, u⟩ := field
    by_cases hk : k = key
    · subst hk
      rw [Fields.set, if_pos rfl, List.all_cons, List.all_cons, hp, hp]
    · rw [Fields.set, if_neg hk, List.all_cons, List.all_cons, ih]

/-- Writing statements keeps a tree positioned. -/
theorem Positioned.set (h : (record fields).Positioned) (hv : v.Positioned)
    (hk : key ∈ statementFields)
    (hl : key ≠ "value" ∨ (record fields).hasKind "Literal" = false) :
    (record (Fields.set fields key v)).Positioned := by
  have hloc : key ≠ "loc" := fun e => absurd (e ▸ hk) (by decide)
  have htype : key ≠ "type" := fun e => absurd (e ▸ hk) (by decide)
  simp only [Positioned, everywhere, Bool.and_eq_true, isPositioned] at h ⊢
  obtain ⟨⟨hpos, hlit⟩, hf⟩ := h
  refine ⟨⟨?_, ?_⟩, everywhereFields_set hf hv⟩
  · have hset := all_set (p := fun field => field.1 != "loc" || field.2.isLocation) fields key v
      fun w => by simp [hloc]
    rwa [hasLocation, isNode_set htype, hset]
  · rw [storesNoNodes, hasKind_set_statementField hk,
      get_set_statementField hk (by decide : "regex" ∉ statementFields), Fields.get_set]
    rcases hl with hl | hl
    · rwa [if_neg hl.symm]
    · rw [hl]
      rfl

theorem positioned_block {statements : Value} (h : statements.Positioned) :
    (block statements).Positioned :=
  @Positioned.set statements [("type", .text "BlockStatement")] "body" rfl h (by decide)
    (.inl (by decide))

end Positioned

/-- A positioned tree in which no located node stands where a list is read. -/
structure Legible (v : Value) : Prop where
  positioned : v.Positioned
  lists : v.everywhere readsLists = true

section Legible

variable {v w : Value} {fields : Fields} {key : String} {items : List Value}

theorem Legible.child? {edge : Edge} (h : v.Legible) (hw : v.child? edge = some w) : w.Legible :=
  ⟨h.positioned.child? hw, everywhere_child? h.lists hw⟩

theorem Legible.get (h : (record fields).Legible) (key : String) :
    (Fields.get fields key).Legible :=
  ⟨h.positioned.get key, everywhere_field h.lists key⟩

theorem Legible.getD (h : (record fields).Legible) (key : String) :
    ((Fields.get? fields key).getD (.list [])).Legible := by
  cases hf : Fields.get? fields key with
  | none => exact ⟨rfl, rfl⟩
  | some v =>
    have hc : (record fields).child? (.field key) = some v := hf
    exact h.child? hc

theorem legible_singleton (h : v.Legible) : (list [v]).Legible := by
  refine ⟨positioned_list.mpr (List.forall_mem_singleton.mpr h.positioned), ?_⟩
  rw [everywhere_cons, h.lists]
  rfl

theorem Legible.elements (h : v.Legible) (he : v.elements = .ok items) :
    ∀ w ∈ items, w.Legible := by
  intro w hw
  refine ⟨h.positioned.elements he w hw, ?_⟩
  by_cases hv : ∃ items, v = .list items
  · obtain ⟨items, rfl⟩ := hv
    cases he
    obtain ⟨i, hi⟩ := List.mem_iff_getElem?.mp hw
    have hc : (list items).child? (.item i) = some w := hi
    exact everywhere_child? h.lists hc
  · have hv : ∀ items, v ≠ .list items := fun items e => hv ⟨items, e⟩
    exact everywhere_of_isString (isString_of_elements hv he w hw)

theorem legible_loopBody (h : (record fields).Legible) : (loopBody fields).Legible := by
  unfold loopBody
  dsimp only
  split
  · exact h.get "body"
  · exact ⟨rfl, rfl⟩

theorem isLocated_getD (h : (Fields.get fields key).isLocated = false) :
    ((Fields.get? fields key).getD (.list [])).isLocated = false := by
  cases hf : Fields.get? fields key with
  | none => rfl
  | some v => rwa [Fields.get_of_get? hf] at h

end Legible

mutual

theorem unlocated_of_holdsNoNodes : ∀ v : Value, v.holdsNoNodes = true → v.unlocated = v
  | .list items, h => by
    rw [unlocated, unlocatedItems_of_holdsNoNodes items h]
  | .record fields, h => by
    simp only [holdsNoNodes, everywhere, Bool.and_eq_true, Bool.not_eq_true'] at h
    rw [unlocated, h.1, unlocatedFields_of_holdsNoNodes fields h.2]
  | .null, _ | .bool _, _ | .int _, _ | .float _, _ | .text _, _ | .broken _, _
  | .host _, _ => by simp [unlocated]

theorem unlocatedItems_of_holdsNoNodes : ∀ items : List Value,
    (list items).holdsNoNodes = true → unlocatedItems items = items
  | [], _ => by rw [unlocatedItems]
  | item :: rest, h => by
    rw [holdsNoNodes, everywhere_cons, Bool.and_eq_true] at h
    rw [unlocatedItems, unlocated_of_holdsNoNodes item h.1,
      unlocatedItems_of_holdsNoNodes rest h.2]

theorem unlocatedFields_of_holdsNoNodes : ∀ fields : List (String × Value),
    everywhereFields (fun fields => !(record fields).isNode) fields = true →
      unlocatedFields false fields = fields
  | [], _ => by rw [unlocatedFields]
  | (key, v) :: rest, h => by
    rw [everywhereFields, Bool.and_eq_true] at h
    rw [unlocatedFields, unlocated_of_holdsNoNodes v h.1,
      unlocatedFields_of_holdsNoNodes rest h.2]
    rfl

end

/-! ## Lists -/

section Elements

variable {v : Value} {fields : Fields}

theorem keys_unlocatedFields {isNode : Bool}
    (h : isNode = true → Fields.get? fields "loc" = none) :
    (unlocatedFields isNode fields).map (·.1) = fields.map (·.1) := by
  induction fields with
  | nil => rw [unlocatedFields]
  | cons field rest ih =>
    obtain ⟨k, u⟩ := field
    have hk : (isNode && k == "loc") = false := by
      refine Bool.eq_false_iff.mpr fun hk => ?_
      rw [Bool.and_eq_true, beq_iff_eq] at hk
      obtain ⟨hn, rfl⟩ := hk
      simpa [Fields.get?_cons] using h hn
    have hr : isNode = true → Fields.get? rest "loc" = none := by
      intro hn
      have hne : "loc" ≠ k := by
        rintro rfl
        rw [hn] at hk
        cases hk
      simpa [Fields.get?_cons, hne] using h hn
    rw [unlocatedFields, hk, List.map_cons, ← ih hr]
    rfl

theorem keys_unlocatedRecord (h : (record fields).isLocated = false) :
    (unlocatedRecord fields).map (·.1) = fields.map (·.1) := by
  refine keys_unlocatedFields fun hn => ?_
  rw [isLocated, hn, Bool.true_and, field?_record] at h
  simpa using h

/-- Unless it is a located node, a value yields the same elements, without their positions. -/
theorem elements_unlocated (h : v.isLocated = false) :
    v.unlocated.elements = v.elements.map (List.map unlocated) := by
  by_cases hv : ∃ items, v = .list items
  · obtain ⟨items, rfl⟩ := hv
    simp [elements, Except.map]
  · have hv : ∀ items, v ≠ .list items := fun items e => hv ⟨items, e⟩
    have he : v.unlocated.elements = v.elements := by
      cases v with
      | list items => exact absurd rfl (hv items)
      | record fields =>
        have hk := keys_unlocatedRecord h
        simpa [elements, Function.comp_def] using congrArg (List.map Value.text) hk
      | _ => simp [unlocated]
    rw [he]
    cases hi : v.elements with
    | error cause => rfl
    | ok items =>
      have hs : ∀ w ∈ items, w.unlocated = w := fun w hw =>
        unlocated_of_isString (isString_of_elements hv hi w hw)
      exact congrArg Except.ok ((List.map_congr_left hs).trans (List.map_id items)).symm

end Elements

/-! ## Lines -/

section Line

variable {v : Value} {fields : Fields}

theorem positionFields_unlocated (v : Value) :
    v.unlocated.positionFields = v.positionFields.map unlocatedRecord := by
  unfold positionFields
  rw [truthy_unlocated]
  split
  · cases v with
    | record fields => simp [Except.map]
    | list items => simp [Except.map]
    | _ => simp [unlocated, Except.map]
  · simp [Except.map, unlocatedRecord, unlocatedFields]

theorem positionFields_of_isLocation (h : v.isLocation = true) :
    ∃ fields, v.positionFields = .ok fields ∧
      (Fields.get fields "start").isRecordOrNull = true := by
  cases v with
  | record fields =>
    refine ⟨fields, ?_, ?_⟩
    · cases fields <;> rfl
    · refine get_of (P := fun w => w.isRecordOrNull = true) rfl fun w hw => ?_
      have hp := List.all_eq_true.mp h ("start", w) (Fields.mem_of_get? hw)
      cases w with
      | record _ => rfl
      | _ => cases hp
  | _ => cases h

theorem line_of_isLocated (h : (record fields).Positioned) (hl : (record fields).isLocated = true) :
    ∃ line, (record fields).line = .ok line := by
  rw [isLocated, Bool.and_eq_true, Option.isSome_iff_exists] at hl
  obtain ⟨hn, loc, hloc⟩ := hl
  have hp := check_of_everywhere h
  rw [isPositioned, hasLocation, hn, Bool.not_true, Bool.false_or, Bool.and_eq_true] at hp
  have hloc' := List.all_eq_true.mp hp.1 ("loc", loc) (Fields.mem_of_get? hloc)
  obtain ⟨fields', hpf, hs⟩ := positionFields_of_isLocation (v := loc) (by simpa using hloc')
  obtain ⟨start, hstart, -⟩ := positionFields_of_isRecordOrNull hs
  exact ⟨Fields.get start "line", by simp only [line, Fields.get_of_get? hloc, hpf, hstart]⟩

/-- A tree without positions has a line where the tree has one. -/
theorem line_unlocated (h : v.Positioned) : ∃ f, v.unlocated.line = v.line.map f := by
  cases v with
  | record fields =>
    by_cases hl : (record fields).isLocated = true
    · obtain ⟨line, hline⟩ := line_of_isLocated h hl
      rw [isLocated, Bool.and_eq_true] at hl
      have hloc : Fields.get (unlocatedRecord fields) "loc" = .null := by
        rw [Fields.get, unlocatedRecord, get?_unlocatedFields, hl.1]
        rfl
      refine ⟨fun _ => .null, ?_⟩
      rw [hline, unlocated_record, Value.line, hloc]
      rfl
    · -- what stands in `loc` is no position, but a part like any other
      have hloc : Fields.get (unlocatedRecord fields) "loc" =
          (Fields.get fields "loc").unlocated := by
        rw [isLocated, Bool.and_eq_true, not_and] at hl
        rw [Fields.get, Fields.get, unlocatedRecord, get?_unlocatedFields]
        cases hn : (record fields).isNode with
        | true =>
          have hg : Fields.get? fields "loc" = none := by simpa using hl hn
          rw [hg]
          simp
        | false =>
          cases hg : Fields.get? fields "loc" with
          | none => simp
          | some loc => simp
      refine ⟨unlocated, ?_⟩
      rw [unlocated_record, line, line, hloc, positionFields_unlocated]
      cases (Fields.get fields "loc").positionFields with
      | error fault => rfl
      | ok loc =>
        simp only [Except.map]
        rw [get_unlocatedRecord (by decide), positionFields_unlocated]
        cases (Fields.get loc "start").positionFields with
        | error fault => rfl
        | ok start =>
          simp only [Except.map]
          rw [get_unlocatedRecord (by decide)]
  | list items => exact ⟨id, by rw [unlocated_list]; rfl⟩
  | _ => exact ⟨id, by simp [unlocated, line, Except.map]⟩

theorem kind_unlocated (h : v.kind.usableKey = true) : v.unlocated.kind = v.kind := by
  cases v with
  | record fields =>
    rw [kind, field?_record] at h
    rw [unlocated_record, kind, kind, field?_record, field?_record,
      get?_unlocatedRecord (by decide)]
    cases ht : Fields.get? fields "type" with
    | none => rfl
    | some t =>
      rw [ht, Option.getD_some] at h
      cases t with
      | list _ | record _ => cases h
      | _ => simp [unlocated]
  | list items => rw [unlocated_list]; rfl
  | _ => simp [unlocated]

end Line

end Value

/-- A charge without its line. -/
def Charge.unlined (charge : Charge) : Charge :=
  { charge with line := .null }

/-- The entry for a charge in a tree without positions differs in nothing but the line. -/
theorem chargeOf_unlocated {v : Value} (h : v.Positioned) (hk : v.kind.usableKey = true)
    (gamma : Int) (label : Option String) :
    (Charge.of v.unlocated gamma label).map Charge.unlined =
      (Charge.of v gamma label).map Charge.unlined := by
  obtain ⟨f, hf⟩ := Value.line_unlocated h
  rw [Charge.of, Charge.of, hf, Value.kind_unlocated hk]
  cases v.line with
  | error fault => rfl
  | ok line => cases label <;> rfl

end ContractMeter
