import Mathlib.Logic.Relation
import ContractMeter.Proofs.Bill
import ContractMeter.Proofs.Lookalike

/-!
# ContractMeter.Proofs.Reordering

The order of statements and the bill.

* `Value.Reorders`, `Value.Reordered` — one statement list of a tree in another order; any number of
  them, one after the other.
* `Value.surface` — what prices read of a value, which holds no list of statements.
* `Value.Alike` — values that prices and records do not tell apart; `Value.Reorders.alike` says that
  reordered ones are.
* `Instrumenter.BillsSame` — values that every walk bills the same; `Value.Reorders.billsSame`.
* `statement_order_is_free` — concatenated lists add up, and reordered trees have the same bill.
-/

namespace ContractMeter

open Instrumenter (isUncharged loopBody)
open Metered

namespace Value

/-! ## Reordered trees -/

/-- Whether the list in a field is one of statements: the body of a sequence, or what a case of a
`switch` runs. The consequent of an `if` is a statement itself. -/
def holdsStatements (fields : Fields) (key : String) : Bool :=
  (record fields).container == .sequence && key == "body" ||
    (record fields).container != .branch && key == "consequent"

/-- What a literal stores. -/
def storedFields : List String := ["value", "regex"]

/-- Whether statements can stand somewhere in a field. The kind and the position of a node hold
none, nor does what a literal stores. -/
def leadsToStatements (fields : Fields) (key : String) : Bool :=
  key != "type" && key != "loc" &&
    !((record fields).hasKind "Literal" && storedFields.contains key)

/-- The second tree is the first one with the elements of one statement list, at any depth, in
another order. -/
inductive Reorders : Value → Value → Prop where
  | here {front back : Fields} {key : String} {items items' : List Value}
      (hk : holdsStatements (front ++ (key, .list items) :: back) key = true)
      (hp : items.Perm items') :
      Reorders (.record (front ++ (key, .list items) :: back))
        (.record (front ++ (key, .list items') :: back))
  | field {front back : Fields} {key : String} {v w : Value}
      (hk : leadsToStatements (front ++ (key, v) :: back) key = true) (h : Reorders v w) :
      Reorders (.record (front ++ (key, v) :: back)) (.record (front ++ (key, w) :: back))
  | item {front back : List Value} {v w : Value} (h : Reorders v w) :
      Reorders (.list (front ++ v :: back)) (.list (front ++ w :: back))

/-- The second tree is the first one with the elements of any number of statement lists in another
order. -/
def Reordered : Value → Value → Prop :=
  Relation.ReflTransGen Reorders

/-! ### One field in place of another -/

section Replace

variable {front back : Fields} {key : String} {v w : Value}

theorem get?_replace (name : String) :
    Fields.get? (front ++ (key, w) :: back) name = Fields.get? (front ++ (key, v) :: back) name ∨
      name = key ∧ Fields.get? (front ++ (key, v) :: back) name = some v ∧
        Fields.get? (front ++ (key, w) :: back) name = some w := by
  induction front with
  | nil =>
    rw [List.nil_append, List.nil_append, Fields.get?_cons, Fields.get?_cons]
    by_cases h : name = key
    · rw [if_pos h, if_pos h]
      exact .inr ⟨h, rfl, rfl⟩
    · rw [if_neg h, if_neg h]
      exact .inl rfl
  | cons field rest ih =>
    obtain ⟨k, u⟩ := field
    rw [List.cons_append, List.cons_append, Fields.get?_cons, Fields.get?_cons]
    split
    · exact .inl rfl
    · exact ih

theorem get?_replace_of_ne {name : String} (h : name ≠ key) :
    Fields.get? (front ++ (key, w) :: back) name = Fields.get? (front ++ (key, v) :: back) name :=
  (get?_replace name).resolve_right fun hr => h hr.1

theorem get_replace_of_ne {name : String} (h : name ≠ key) :
    Fields.get (front ++ (key, w) :: back) name = Fields.get (front ++ (key, v) :: back) name := by
  rw [Fields.get, Fields.get, get?_replace_of_ne h]

theorem elements_replace :
    (record (front ++ (key, w) :: back)).elements =
      (record (front ++ (key, v) :: back)).elements := by
  simp only [elements, List.map_append, List.map_cons]

theorem key_of_holdsStatements {fields : Fields} (h : holdsStatements fields key = true) :
    key = "body" ∨ key = "consequent" := by
  simp only [holdsStatements, Bool.or_eq_true, Bool.and_eq_true, beq_iff_eq] at h
  exact h.imp And.right And.right

end Replace

/-! ## What prices read -/

mutual

/-- What prices read of a value, however far they go into it. -/
def surface : Value → Value
  | .list items => .list (surfaceItems items)
  | .record fields => .record (surfaceFields ((record fields).hasKind "Literal") fields)
  | v => v

def surfaceItems : List Value → List Value
  | [] => []
  | item :: rest => surface item :: surfaceItems rest

/-- The fields that prices read, and in a literal those that it stores. -/
def surfaceFields (stores : Bool) : List (String × Value) → List (String × Value)
  | [] => []
  | (key, v) :: rest =>
    if Pricing.readFields.contains key then (key, surface v) :: surfaceFields stores rest
    else if stores && storedFields.contains key then (key, v) :: surfaceFields stores rest
    else surfaceFields stores rest

end

section Surface

variable {stores : Bool} {fields : Fields} {key : String}

theorem surfaceItems_eq_map (items : List Value) : surfaceItems items = items.map surface := by
  induction items with
  | nil => rw [surfaceItems, List.map_nil]
  | cons item rest ih => rw [surfaceItems, List.map_cons, ih]

theorem surfaceFields_append (front back : Fields) :
    surfaceFields stores (front ++ back) =
      surfaceFields stores front ++ surfaceFields stores back := by
  induction front with
  | nil => rw [surfaceFields, List.nil_append, List.nil_append]
  | cons field rest ih =>
    obtain ⟨k, v⟩ := field
    rw [List.cons_append, surfaceFields, surfaceFields, ih]
    split
    · rfl
    · split <;> rfl

theorem surfaceFields_cons (field : String × Value) (rest : Fields) :
    surfaceFields stores (field :: rest) =
      surfaceFields stores [field] ++ surfaceFields stores rest :=
  surfaceFields_append [field] rest

theorem surfaceFields_of_dropped {v : Value} (hr : key ∉ Pricing.readFields)
    (hs : (stores && storedFields.contains key) = false) :
    surfaceFields stores [(key, v)] = [] := by
  rw [surfaceFields, if_neg (mt List.contains_iff_mem.mp hr), hs, surfaceFields]
  rfl

theorem get?_surfaceFields (hk : key ∈ Pricing.readFields) (fields : Fields) :
    Fields.get? (surfaceFields stores fields) key = (Fields.get? fields key).map surface := by
  induction fields with
  | nil => rw [surfaceFields]; rfl
  | cons field rest ih =>
    obtain ⟨k, v⟩ := field
    rw [surfaceFields, Fields.get?_cons]
    by_cases he : key = k
    · subst he
      rw [if_pos (List.contains_iff_mem.mpr hk), Fields.get?_cons, if_pos rfl, if_pos rfl]
      rfl
    · rw [if_neg he]
      split
      · rw [Fields.get?_cons, if_neg he, ih]
      · split
        · rw [Fields.get?_cons, if_neg he, ih]
        · exact ih

theorem get?_surfaceFields_stored (hk : key ∈ storedFields) (fields : Fields) :
    Fields.get? (surfaceFields true fields) key = Fields.get? fields key := by
  have hr : key ∉ Pricing.readFields := by
    have : ∀ key ∈ storedFields, key ∉ Pricing.readFields := by decide
    exact this key hk
  induction fields with
  | nil => rw [surfaceFields]
  | cons field rest ih =>
    obtain ⟨k, v⟩ := field
    rw [surfaceFields, Fields.get?_cons]
    by_cases he : key = k
    · subst he
      rw [if_neg (mt List.contains_iff_mem.mp hr), Bool.true_and,
        if_pos (List.contains_iff_mem.mpr hk), Fields.get?_cons, if_pos rfl, if_pos rfl]
    · rw [if_neg he]
      split
      · rw [Fields.get?_cons, if_neg he, ih]
      · split
        · rw [Fields.get?_cons, if_neg he, ih]
        · exact ih

/-- Prices do not tell a value from its surface. -/
theorem lookalike_surface : Pricing.Lookalike fun v w => w = v.surface where
  list := by
    rintro items _ rfl
    exact ⟨surface, by rw [surface, surfaceItems_eq_map], fun _ _ => rfl⟩
  record := by
    rintro fields _ rfl
    exact ⟨_, surface, by rw [surface], fun key hk => ⟨get?_surfaceFields hk fields,
      fun _ _ => rfl⟩⟩
  scalar := by
    rintro v _ rfl hl hr
    cases v with
    | list items => exact absurd rfl (hl items)
    | record fields => exact absurd rfl (hr fields)
    | _ => simp [surface]
  literal := by
    rintro v _ rfl hk
    cases v with
    | record fields =>
      have hget {key : String} (h : key ∈ storedFields) :
          Fields.get (surfaceFields true fields) key = Fields.get fields key := by
        rw [Fields.get, Fields.get, get?_surfaceFields_stored h]
      rw [surface, hk, Pricing.declaredLiteral, Pricing.declaredLiteral, field_record, field_record,
        field_record, field_record, hget (by decide), hget (by decide)]
    | _ => cases hk

end Surface

/-! ## Alike values -/

/-- Values that prices and records do not tell apart. -/
structure Alike (v w : Value) : Prop where
  type : w.field? "type" = v.field? "type"
  typeName : w.typeName = v.typeName
  line : w.line = v.line
  truthy : w.truthy = v.truthy
  null : w = .null ↔ v = .null
  surface : w.surface = v.surface

section Alike

variable {v w : Value} {front back : Fields} {key : String}

theorem Alike.refl (v : Value) : v.Alike v :=
  ⟨rfl, rfl, rfl, rfl, Iff.rfl, rfl⟩

theorem Alike.kind (h : v.Alike w) : w.kind = v.kind := by
  rw [Value.kind, Value.kind, h.type, h.typeName]

theorem Alike.hasKind (h : v.Alike w) (name : String) : w.hasKind name = v.hasKind name := by
  rw [Value.hasKind, Value.hasKind, isNode, isNode, h.type, h.kind]

theorem Alike.container (h : v.Alike w) : w.container = v.container := by
  rw [Value.container, Value.container, h.type]

theorem Alike.isUncharged (h : v.Alike w) : isUncharged w = isUncharged v := by
  unfold Instrumenter.isUncharged
  rw [funext h.hasKind]

theorem Alike.gammaFor (h : v.Alike w) (p : Pricing) (depth : Int) :
    p.gammaFor depth w = p.gammaFor depth v := by
  rw [← lookalike_surface.gammaFor_agrees p depth rfl, h.surface,
    lookalike_surface.gammaFor_agrees p depth rfl]

theorem Alike.gammaPerIteration (h : v.Alike w) (p : Pricing) (depth : Int) :
    p.gammaPerIteration depth w = p.gammaPerIteration depth v := by
  rw [← lookalike_surface.gammaPerIteration_agrees p depth rfl, h.surface,
    lookalike_surface.gammaPerIteration_agrees p depth rfl]

/-- A record with another value in a field that is neither its kind nor its position. -/
theorem alike_replace (ht : key ≠ "type") (hl : key ≠ "loc")
    (hs : ∀ stores, stores = (record (front ++ (key, v) :: back)).hasKind "Literal" →
      surfaceFields stores [(key, w)] = surfaceFields stores [(key, v)]) :
    (record (front ++ (key, v) :: back)).Alike (record (front ++ (key, w) :: back)) := by
  have htype : Fields.get? (front ++ (key, w) :: back) "type" =
      Fields.get? (front ++ (key, v) :: back) "type" := get?_replace_of_ne ht.symm
  have hkind : (record (front ++ (key, w) :: back)).hasKind "Literal" =
      (record (front ++ (key, v) :: back)).hasKind "Literal" := by
    rw [Value.hasKind, Value.hasKind, isNode, isNode, Value.kind, Value.kind, field?_record,
      field?_record, htype]
    rfl
  refine ⟨htype, rfl, ?_, ?_, iff_of_false (by simp) (by simp), ?_⟩
  · simp only [Value.line, get_replace_of_ne (v := v) hl.symm]
  · cases front <;> rfl
  · rw [Value.surface, Value.surface, hkind, surfaceFields_append, surfaceFields_append,
      surfaceFields_cons, hs _ rfl, ← surfaceFields_cons]

/-- Prices do not read lists of statements. -/
theorem not_read_of_holdsStatements {fields : Fields} (h : holdsStatements fields key = true) :
    key ∉ Pricing.readFields ∧ key ∉ storedFields ∧ key ≠ "loc" := by
  rcases key_of_holdsStatements h with rfl | rfl <;> decide

theorem Reorders.alike (h : Reorders v w) : v.Alike w := by
  induction h with
  | @here front back key items items' hk hp =>
    obtain ⟨hr, hs, hl⟩ := not_read_of_holdsStatements hk
    have hd (stores : Bool) : (stores && storedFields.contains key) = false := by
      simp [hs]
    refine alike_replace (fun e => hr (e ▸ by decide)) hl fun stores _ => ?_
    rw [surfaceFields_of_dropped hr (hd stores), surfaceFields_of_dropped hr (hd stores)]
  | @field front back key v w hk _ ih =>
    simp only [leadsToStatements, Bool.and_eq_true, bne_iff_ne, Bool.not_eq_true'] at hk
    obtain ⟨⟨ht, hl⟩, hs⟩ := hk
    refine alike_replace ht hl fun stores he => ?_
    by_cases hr : key ∈ Pricing.readFields
    · have hc := List.contains_iff_mem.mpr hr
      simp only [surfaceFields, hc, if_true, ih.surface]
    · rw [← he] at hs
      rw [surfaceFields_of_dropped hr hs, surfaceFields_of_dropped hr hs]
  | @item front back v w _ ih =>
    refine ⟨rfl, rfl, rfl, ?_, ⟨nofun, nofun⟩, ?_⟩
    · cases front <;> rfl
    · rw [surface, surface, surfaceItems_eq_map, surfaceItems_eq_map, List.map_append,
        List.map_append, List.map_cons, List.map_cons, ih.surface]

end Alike

end Value

/-! ## Bills -/

namespace Instrumenter

variable {m : Instrumenter} {n : Nat} {v w : Value} {fields fields' : Fields}

/-- Values that every walk bills the same, whatever it reads them as. -/
structure BillsSame (m : Instrumenter) (v w : Value) : Prop where
  alike : v.Alike w
  node : ∀ n, (m.nodeAt n w).bill = (m.nodeAt n v).bill
  sequence : ∀ n, (m.sequenceAt n w).bill = (m.sequenceAt n v).bill
  cases : ∀ n, (m.casesAt n w).bill = (m.casesAt n v).bill
  case : ∀ n, m.caseBill n w = m.caseBill n v

theorem BillsSame.refl (m : Instrumenter) (v : Value) : m.BillsSame v v :=
  ⟨.refl v, fun _ => rfl, fun _ => rfl, fun _ => rfl, fun _ => rfl⟩

theorem BillsSame.statement (h : m.BillsSame v w) (n : Nat) :
    m.statementBill n w = m.statementBill n v := by
  rw [statementBill, statementBill, h.node,
    bill_charged_congr h.alike.isUncharged (h.alike.gammaFor _ 0) h.alike.kind h.alike.line]

theorem BillsSame.statementPart (h : m.BillsSame v w) (n : Nat) :
    (statementPart (m.nodeAt n) (m.innerSequenceAt n) w).bill =
      (statementPart (m.nodeAt n) (m.innerSequenceAt n) v).bill := by
  by_cases hn : v = .null
  · rw [hn, h.alike.null.mpr hn]
  · rw [statementPart_of_ne_null hn, statementPart_of_ne_null (mt h.alike.null.mp hn),
      h.alike.hasKind]
    split
    · exact h.node n
    · refine bill_finish.trans (Eq.trans ?_ bill_finish.symm)
      refine bill_innerSequenceAt_congr (fun n => ?_) n
      cases n with
      | zero => rfl
      | succ n => rw [bill_sequenceAt, bill_sequenceAt, List.map_singleton, List.map_singleton,
          h.statement n]

/-- The second field is missing as the first one is, or it is billed the same. -/
def FieldsSame (m : Instrumenter) (field field' : Option Value) : Prop :=
  field' = field ∨ ∃ v w, field = some v ∧ field' = some w ∧ m.BillsSame v w

theorem FieldsSame.getD {field field' : Option Value} (h : m.FieldsSame field field')
    (default : Value) : m.BillsSame (field.getD default) (field'.getD default) := by
  rcases h with rfl | ⟨v, w, rfl, rfl, hb⟩
  · exact .refl m _
  · exact hb

/-- Records of the same kind whose parts are billed the same. Only an `if` reads its consequent. -/
structure PartsSame (m : Instrumenter) (fields fields' : Fields) : Prop where
  alike : (Value.record fields).Alike (.record fields')
  statements : (Value.record fields).container = .sequence → ∀ n,
    (m.sequenceAt n ((Fields.get? fields' "body").getD (.list []))).bill =
      (m.sequenceAt n ((Fields.get? fields "body").getD (.list []))).bill
  part : (Value.record fields).container ≠ .sequence → ∀ name,
    (name = "consequent" → (Value.record fields).container = .branch) →
      m.FieldsSame (Fields.get? fields name) (Fields.get? fields' name)

section PartsSame

variable (h : m.PartsSame fields fields')

include h

theorem PartsSame.get (hc : (Value.record fields).container ≠ .sequence) {name : String}
    (hn : name = "consequent" → (Value.record fields).container = .branch) :
    m.BillsSame (Fields.get fields name) (Fields.get fields' name) :=
  (h.part hc name hn).getD .null

theorem PartsSame.loopBody (hc : (Value.record fields).container ≠ .sequence) :
    m.BillsSame (loopBody fields) (loopBody fields') := by
  have hb : m.BillsSame (Fields.get fields "body") (Fields.get fields' "body") :=
    h.get hc fun e => absurd e (by decide)
  unfold Instrumenter.loopBody
  dsimp only
  rw [hb.alike.truthy]
  split
  · exact hb
  · exact .refl m _

theorem PartsSame.parts {kind : String} (hk : Fields.get? fields "type" = some (.text kind))
    (depth : Int) :
    (m.parts (m.nodeAt n) (m.sequenceAt n) (m.innerSequenceAt n) depth kind fields').bill =
      (m.parts (m.nodeAt n) (m.sequenceAt n) (m.innerSequenceAt n) depth kind fields).bill := by
  have hcont := Value.container_of_kind hk
  have hget (hc : (Value.record fields).container ≠ .sequence) {name : String}
      (hn : name ≠ "consequent") : m.BillsSame (Fields.get fields name) (Fields.get fields' name) :=
    h.get hc fun e => absurd e hn
  have hend {f f' : Value → Value} :
      ∀ v w, (Metered.pure (f' v)).bill = (Metered.pure (f w)).bill := fun _ _ => rfl
  unfold Instrumenter.parts
  cases ho : Container.ofKind kind <;> rw [ho] at hcont
  case sequence => exact bill_bind_same (h.statements hcont n) hend
  all_goals have hc : (Value.record fields).container ≠ .sequence := by rw [hcont]; decide
  case body => exact bill_bind_same ((hget hc (by decide)).node n) hend
  case loop =>
    dsimp only [meterLoop]
    rw [h.alike.gammaPerIteration]
    refine bill_bind_congr fun gamma => ?_
    rw [recordCharge, recordCharge, chargeOf_congr h.alike.kind h.alike.line]
    exact bill_bind_congr fun _ => bill_bind_same ((h.loopBody hc).statementPart n) hend
  case statementBody => exact bill_bind_same ((hget hc (by decide)).statementPart n) hend
  case value => exact bill_bind_same ((hget hc (by decide)).node n) hend
  case branch =>
    exact bill_bind_same ((h.get hc fun _ => hcont).statementPart n) fun _ _ =>
      bill_bind_same ((hget hc (by decide)).statementPart n) hend
  case attempt =>
    exact bill_bind_same ((hget hc (by decide)).node n) fun _ _ =>
      bill_bind_same ((hget hc (by decide)).node n) fun _ _ =>
        bill_bind_same ((hget hc (by decide)).node n) hend
  case switch =>
    have hcases := ((h.part hc "cases" fun e => absurd e (by decide)).getD (.list [])).cases n
    have hend (v : Value) (f : List Value → Value) :
        (Metered.ofExcept v.elements >>= fun cases =>
          eachCase (m.innerSequenceAt n) cases >>= fun out => Metered.pure (f out)).bill =
          (m.casesAt n v).bill := bill_bind_congr fun _ => bill_finish
    exact (hend _ _).trans (hcases.trans (hend _ _).symm)
  case leaf => rfl

theorem PartsSame.node (n : Nat) :
    (m.nodeAt n (.record fields')).bill = (m.nodeAt n (.record fields)).bill := by
  cases n with
  | zero => rfl
  | succ n =>
    have ht : Fields.get? fields' "type" = Fields.get? fields "type" := h.alike.type
    rw [nodeAt, nodeAt, ht]
    split
    · rfl
    · exact h.parts ‹_› _
    · split <;> rfl

end PartsSame

/-- Records with the same names of fields are billed the same where they are read as lists. -/
theorem billsSame_of_parts (h : m.PartsSame fields fields')
    (he : (Value.record fields').elements = (Value.record fields).elements)
    (hc : ∀ n, (m.sequenceAt n ((Fields.get? fields' "consequent").getD (.list []))).bill =
      (m.sequenceAt n ((Fields.get? fields "consequent").getD (.list []))).bill) :
    m.BillsSame (.record fields) (.record fields') where
  alike := h.alike
  node := h.node
  sequence n := by
    cases n with
    | zero => rfl
    | succ n => rw [sequenceAt, sequenceAt, chargeElements, chargeElements, he]
  cases n := by rw [casesAt, casesAt, he]
  case n := bill_innerSequenceAt_congr hc n

end Instrumenter

section Bills

variable {m : Instrumenter} {v w : Value}

/-- A tree in which the statements of one list stand in another order is billed the same. -/
theorem Value.Reorders.billsSame (h : v.Reorders w) : m.BillsSame v w := by
  induction h with
  | @here front back key items items' hk hp =>
    have halike := (Value.Reorders.here hk hp).alike
    have hlist (name : String) (n : Nat) :
        (m.sequenceAt n ((Fields.get? (front ++ (key, .list items') :: back) name).getD
          (.list []))).bill =
        (m.sequenceAt n ((Fields.get? (front ++ (key, .list items) :: back) name).getD
          (.list []))).bill := by
      rcases Value.get?_replace name with he | ⟨-, hv, hw⟩
      · rw [he]
      · rw [hv, hw]
        exact Instrumenter.bill_sequenceAt_perm hp n
    refine Instrumenter.billsSame_of_parts ⟨halike, fun _ => hlist "body", fun hc name hn => ?_⟩
      Value.elements_replace (hlist "consequent")
    -- whatever is read as a single part is not the list in question
    refine .inl (Value.get?_replace_of_ne ?_)
    rintro rfl
    simp only [Value.holdsStatements, Bool.or_eq_true, Bool.and_eq_true, beq_iff_eq,
      bne_iff_ne] at hk
    rcases hk with ⟨hs, -⟩ | ⟨hb, rfl⟩
    · exact hc hs
    · exact hb (hn rfl)
  | @field front back key v w hk h ih =>
    have hfield (name : String) :
        m.FieldsSame (Fields.get? (front ++ (key, v) :: back) name)
          (Fields.get? (front ++ (key, w) :: back) name) := by
      rcases Value.get?_replace name with he | ⟨-, hv, hw⟩
      · exact .inl he
      · exact .inr ⟨v, w, hv, hw, ih⟩
    exact Instrumenter.billsSame_of_parts
      ⟨(Value.Reorders.field hk h).alike, fun _ => ((hfield "body").getD _).sequence,
        fun _ name _ => hfield name⟩
      Value.elements_replace ((hfield "consequent").getD _).sequence
  | @item front back v w h ih =>
    refine ⟨(Value.Reorders.item h).alike, fun n => ?_, fun n => ?_, fun n => ?_, fun _ => rfl⟩
    · cases n <;> rfl
    · cases n with
      | zero => rfl
      | succ n =>
        rw [Instrumenter.bill_sequenceAt, Instrumenter.bill_sequenceAt, List.map_append,
          List.map_append, List.map_cons, List.map_cons, ih.statement]
    · rw [Instrumenter.bill_casesAt, Instrumenter.bill_casesAt, List.map_append, List.map_append,
        List.map_cons, List.map_cons, ih.case]

theorem Value.Reordered.billsSame (h : v.Reordered w) (n : Nat) :
    (m.nodeAt n w).bill = (m.nodeAt n v).bill ∧
      (m.sequenceAt n w).bill = (m.sequenceAt n v).bill := by
  induction h with
  | refl => exact ⟨rfl, rfl⟩
  | tail _ hstep ih =>
    have hb := hstep.billsSame (m := m)
    exact ⟨(hb.node n).trans ih.1, (hb.sequence n).trans ih.2⟩

end Bills

/-! ## Concatenated lists -/

section Append

variable {m : Instrumenter} {xs ys : List Value} {l : Ledger}

theorem chargeEach_append {instrument : Value → Metered Value} {out : List Value} :
    (m.chargeEach instrument (xs ++ ys)).Yields l out ↔
      ∃ l₁ l₂ xs' ys', (m.chargeEach instrument xs).Yields l₁ xs' ∧
        (m.chargeEach instrument ys).Yields l₂ ys' ∧ l = l₁ ++ l₂ ∧ out = xs' ++ ys' := by
  induction xs generalizing l out with
  | nil => simp [Instrumenter.chargeEach]
  | cons x rest ih =>
    simp only [List.cons_append, Instrumenter.chargeEach, yields_bind, yields_map, ih]
    constructor
    · rintro ⟨a, s, _, hs, ⟨b, placed, _, hp, ⟨_, ⟨c, d, xs', ys', hx, hy, rfl, rfl⟩, rfl⟩, rfl⟩,
        rfl⟩
      exact ⟨a ++ (b ++ c), d, placed ++ xs', ys', ⟨a, s, _, hs, ⟨b, placed, c, hp, ⟨xs', hx, rfl⟩,
        rfl⟩, rfl⟩, hy, by simp only [Ledger.append_assoc], by simp only [List.append_assoc]⟩
    · rintro ⟨_, d, _, ys', ⟨a, s, _, hs, ⟨b, placed, c, hp, ⟨xs', hx, rfl⟩, rfl⟩, rfl⟩, hy, rfl,
        rfl⟩
      exact ⟨a, s, b ++ (c ++ d), hs, ⟨b, placed, c ++ d, hp, ⟨xs' ++ ys', ⟨c, d, xs', ys', hx, hy,
        rfl, rfl⟩, by simp only [List.append_assoc]⟩, rfl⟩, by simp only [Ledger.append_assoc]⟩

theorem sumOf_append {price : Value → Metered Nat} {g : Nat} :
    (Pricing.sumOf price (xs ++ ys)).Yields l g ↔
      ∃ l₁ l₂ g₁ g₂, (Pricing.sumOf price xs).Yields l₁ g₁ ∧
        (Pricing.sumOf price ys).Yields l₂ g₂ ∧ l = l₁ ++ l₂ ∧ g = g₁ + g₂ := by
  induction xs generalizing l g with
  | nil => simp [Pricing.sumOf]
  | cons x rest ih =>
    simp only [List.cons_append, Pricing.sumOf, yields_bind, yields_map, ih]
    constructor
    · rintro ⟨a, first, _, hf, ⟨_, ⟨b, c, g₁, g₂, hx, hy, rfl, rfl⟩, rfl⟩, rfl⟩
      exact ⟨a ++ b, c, first + g₁, g₂, ⟨a, first, b, hf, ⟨g₁, hx, rfl⟩, rfl⟩, hy,
        (Ledger.append_assoc ..).symm, (Nat.add_assoc ..).symm⟩
    · rintro ⟨_, c, _, g₂, ⟨a, first, b, hf, ⟨g₁, hx, rfl⟩, rfl⟩, hy, rfl, rfl⟩
      exact ⟨a, first, b ++ c, hf, ⟨g₁ + g₂, ⟨b, c, g₁, g₂, hx, hy, rfl, rfl⟩,
        Nat.add_assoc ..⟩, Ledger.append_assoc ..⟩

theorem chargeElements_yields {instrument : Value → Metered Value} {out : Value} :
    (m.chargeElements instrument (.list xs)).Yields l out ↔
      ∃ xs', (m.chargeEach instrument xs).Yields l xs' ∧ out = .list xs' := by
  simp only [Instrumenter.chargeElements, Value.elements, Metered.ofExcept, Metered.pure_bind,
    yields_bind, yields_return]
  constructor
  · rintro ⟨a, xs', _, hx, ⟨rfl, rfl⟩, rfl⟩
    exact ⟨xs', by rwa [Ledger.append_empty], rfl⟩
  · rintro ⟨xs', hx, rfl⟩
    exact ⟨l, xs', .empty, hx, ⟨rfl, rfl⟩, (Ledger.append_empty l).symm⟩

theorem statements_append {out : Value} :
    (m.statements (.list (xs ++ ys))).Yields l out ↔
      ∃ l₁ l₂ xs' ys', (m.statements (.list xs)).Yields l₁ (.list xs') ∧
        (m.statements (.list ys)).Yields l₂ (.list ys') ∧ l = l₁ ++ l₂ ∧
        out = .list (xs' ++ ys') := by
  unfold Instrumenter.statements
  dsimp only
  cases levelsLeft m.maxDepth 0 with
  | zero => simp [Instrumenter.sequenceAt, Instrumenter.tooDeep]
  | succ n =>
    simp only [Instrumenter.sequenceAt, chargeElements_yields, chargeEach_append,
      Value.list.injEq]
    constructor
    · rintro ⟨_, ⟨l₁, l₂, xs', ys', hx, hy, rfl, rfl⟩, rfl⟩
      exact ⟨l₁, l₂, xs', ys', ⟨xs', hx, rfl⟩, ⟨ys', hy, rfl⟩, rfl, rfl⟩
    · rintro ⟨l₁, l₂, xs', ys', ⟨_, hx, rfl⟩, ⟨_, hy, rfl⟩, rfl, rfl⟩
      exact ⟨_, ⟨l₁, l₂, _, _, hx, hy, rfl, rfl⟩, rfl⟩

theorem gammaFor_append {p : Pricing} {depth : Int} {g : Nat} :
    (p.gammaFor depth (.list (xs ++ ys))).Yields l g ↔
      ∃ l₁ l₂ g₁ g₂, (p.gammaFor depth (.list xs)).Yields l₁ g₁ ∧
        (p.gammaFor depth (.list ys)).Yields l₂ g₂ ∧ l = l₁ ++ l₂ ∧ g = g₁ + g₂ := by
  unfold Pricing.gammaFor
  cases levelsLeft p.maxDepth depth with
  | zero => simp [Pricing.gammaAt, Pricing.tooDeep]
  | succ n => exact sumOf_append

end Append

/-- **The order of statements does not change the bill.** Metering or pricing two lists of
statements in one succeeds if and only if it does for each; the results and what was recorded are
then those of the first and behind them those of the second, and the prices add up. A tree in which
the elements of any number of statement lists stand in another order is metered if and only if the
tree itself is, with the same total and the same charges and warnings in some order. -/
theorem statement_order_is_free (m : Instrumenter) :
    (∀ (xs ys : List Value) (l : Ledger) (out : Value),
      (m.statements (.list (xs ++ ys))).Yields l out ↔
        ∃ l₁ l₂ xs' ys', (m.statements (.list xs)).Yields l₁ (.list xs') ∧
          (m.statements (.list ys)).Yields l₂ (.list ys') ∧ l = l₁ ++ l₂ ∧
          out = .list (xs' ++ ys')) ∧
    (∀ (depth : Int) (xs ys : List Value) (l : Ledger) (g : Nat),
      (m.pricing.gammaFor depth (.list (xs ++ ys))).Yields l g ↔
        ∃ l₁ l₂ g₁ g₂, (m.pricing.gammaFor depth (.list xs)).Yields l₁ g₁ ∧
          (m.pricing.gammaFor depth (.list ys)).Yields l₂ g₂ ∧ l = l₁ ++ l₂ ∧ g = g₁ + g₂) ∧
    (∀ tree tree' : Value, tree.Reordered tree' → ∀ depth : Int,
      (m.node depth tree).SameBill (m.node depth tree')) ∧
    (∀ items items' items'' : List Value, (Value.list items).Reordered (.list items') →
      items'.Perm items'' →
        (m.statements (.list items)).SameBill (m.statements (.list items''))) := by
  refine ⟨fun _ _ _ _ => statements_append, fun _ _ _ _ _ => gammaFor_append,
    fun tree tree' h depth => ?_, fun items items' items'' h hp => ?_⟩
  · exact sameBill_of_eq (h.billsSame _).1
  · exact sameBill_of_eq ((Instrumenter.bill_sequenceAt_perm hp _).trans (h.billsSame _).2)

namespace Sample

/-- The statement `a < b;`. -/
def comparison : Value :=
  Value.node "ExpressionStatement" [("expression", less)]

/-- The statement `switch (a) { case b: … }`. -/
def switchTo (statements : List Value) : Value :=
  Value.node "SwitchStatement" [("cases", .list [
    Value.node "SwitchCase" [("consequent", .list statements)]])]

/-- A loop and a `switch` with two statements in each. -/
def loopAndSwitch (first second : Value) : List Value :=
  [whileLess (Instrumenter.block (.list [first, second])), switchTo [first, second]]

theorem reordered_loopAndSwitch (first second : Value) :
    (Value.list (loopAndSwitch first second)).Reordered (.list (loopAndSwitch second first)) := by
  have hloop : (whileLess (Instrumenter.block (.list [first, second]))).Reorders
      (whileLess (Instrumenter.block (.list [second, first]))) :=
    @Value.Reorders.field [_, _] [] _ _ _ rfl (@Value.Reorders.here [_] [] _ _ _ rfl (.swap ..))
  have hswitch : (switchTo [first, second]).Reorders (switchTo [second, first]) :=
    @Value.Reorders.field [_] [] _ _ _ rfl (@Value.Reorders.item [] [] _ _
      (@Value.Reorders.here [_] [] _ _ _ rfl (.swap ..)))
  exact .tail (.single (@Value.Reorders.item [] [_] _ _ hloop))
    (@Value.Reorders.item [_] [] _ _ hswitch)

end Sample

/-- The statements in the loop and in the `switch` change places, and so do the two themselves. -/
theorem statement_order_is_free_of_loopAndSwitch :
    let ordered := Sample.loopAndSwitch Sample.increment Sample.comparison
    let swapped := Sample.loopAndSwitch Sample.comparison Sample.increment
    (Value.list ordered).Reordered (.list swapped) ∧ swapped.Perm swapped.reverse ∧
      totalGamma (Instrumenter.sample.statements (.list ordered)).ledger.charges = 20 ∧
      (Instrumenter.sample.statements (.list ordered)).SameBill
        (Instrumenter.sample.statements (.list swapped.reverse)) ∧
      (Instrumenter.sample.node 0 (.list ordered)).SameBill
        (Instrumenter.sample.node 0 (.list swapped)) := by
  intro ordered swapped
  obtain ⟨-, -, hnode, hlist⟩ := statement_order_is_free .sample
  have hr := Sample.reordered_loopAndSwitch Sample.increment Sample.comparison
  have hp := swapped.reverse_perm.symm
  exact ⟨hr, hp, rfl, hlist _ _ _ hr hp, hnode _ _ hr 0⟩

end ContractMeter
