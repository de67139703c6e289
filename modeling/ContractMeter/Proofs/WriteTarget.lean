import ContractMeter.Proofs.HostAccess

/-!
# ContractMeter.Proofs.WriteTarget

What a contract writes to, and which of it renaming leaves the runtime's.

* `Value.writes` — the write targets of a record, through patterns down to what they assign.
* `Value.writesNone` — no write target anywhere in a tree is of some sort.
* `Sanitizer.writesNone_renamed`, `Instrumenter.writesNone_node` — the targets behind each pass.
* `writes_reach_host_iff` — every identifier written to has a new name or an excluded one; the host
  is written to if and only if the contract wrote to it.
-/

namespace ContractMeter

open MeteringCall (isNamed)

/-! ## Write targets -/

namespace Value

/-- The kinds of nodes that write, with the field that holds what they write to. -/
def writerFields : List (String × String) :=
  [("AssignmentExpression", "left"), ("UpdateExpression", "argument"), ("ForInStatement", "left"),
    ("ForOfStatement", "left")]

/-- The kinds of patterns and declarations, with the field that holds what they bind. -/
def patternFields : List (String × String) :=
  [("ArrayPattern", "elements"), ("ObjectPattern", "properties"), ("Property", "value"),
    ("AssignmentPattern", "left"), ("RestElement", "argument"),
    ("VariableDeclaration", "declarations"), ("VariableDeclarator", "id")]

/-- The field that a table of kinds gives for a record. -/
def fieldByKind (table : List (String × String)) (fields : Fields) : Option String :=
  (table.find? fun entry => (record fields).hasKind entry.1).map (·.2)

def isDeletion (fields : Fields) : Bool :=
  (record fields).hasKind "UnaryExpression" && (Fields.get fields "operator").isText "delete"

/-- The field that holds what a record writes to, if it writes. -/
def writtenField? (fields : Fields) : Option String :=
  if isDeletion fields then some "argument" else fieldByKind writerFields fields

mutual

/-- What a write to a value writes to: the parts of a pattern, or the value itself. -/
def targets : Value → List Value
  | .list items => targetsOfItems items
  | .record fields =>
    match fieldByKind patternFields fields with
    | some key => targetsOfField key fields
    | none => [.record fields]
  | v => [v]

def targetsOfItems : List Value → List Value
  | [] => []
  | item :: rest => targets item ++ targetsOfItems rest

def targetsOfField (key : String) : List (String × Value) → List Value
  | [] => []
  | (k, v) :: rest => if k = key then targets v else targetsOfField key rest

end

/-- The write targets of a record, not of its parts. -/
def writes (fields : Fields) : List Value :=
  match writtenField? fields with
  | some key => (Fields.get fields key).targets
  | none => []

/-- Whether no write target anywhere in a tree is of a sort. -/
def writesNone (sort : Value → Bool) (v : Value) : Bool :=
  v.everywhere fun fields => !(writes fields).any sort

theorem fieldByKind_congr {table : List (String × String)} {fields fields' : Fields}
    (h : ∀ name, (record fields').hasKind name = (record fields).hasKind name) :
    fieldByKind table fields' = fieldByKind table fields := by
  simp only [fieldByKind, h]

theorem fieldByKind_of_hasKind {table : List (String × String)} {fields : Fields} {name : String}
    (h : (record fields).hasKind name = true) (ht : name ∉ table.map (·.1)) :
    fieldByKind table fields = none := by
  rw [fieldByKind, Option.map_eq_none_iff, List.find?_eq_none]
  intro entry he hk
  exact ht (eq_of_hasKind h hk ▸ List.mem_map_of_mem he)

theorem hasKind_of_fieldByKind {table : List (String × String)} {fields : Fields} {key : String}
    (h : fieldByKind table fields = some key) :
    ∃ name, (name, key) ∈ table ∧ (record fields).hasKind name = true := by
  obtain ⟨entry, he, rfl⟩ := Option.map_eq_some_iff.mp h
  have hk := List.find?_some he
  exact ⟨entry.1, List.mem_of_find?_eq_some he, hk⟩

theorem writes_of_hasKind {fields : Fields} {name : String}
    (h : (record fields).hasKind name = true) (ht : name ∉ writerFields.map (·.1))
    (hd : name ≠ "UnaryExpression") : writes fields = [] := by
  have hn : isDeletion fields = false := by rw [isDeletion, hasKind_of_ne h hd, Bool.false_and]
  rw [writes, writtenField?, hn, fieldByKind_of_hasKind h ht]
  rfl

theorem writtenField?_not_statementField {fields : Fields} {key : String}
    (h : writtenField? fields = some key) : key ∉ statementFields := by
  unfold writtenField? at h
  split at h
  · cases h
    decide
  · obtain ⟨name, hm, -⟩ := hasKind_of_fieldByKind h
    simp only [writerFields, List.mem_cons, Prod.mk.injEq, List.not_mem_nil, or_false] at hm
    rcases hm with ⟨-, rfl⟩ | ⟨-, rfl⟩ | ⟨-, rfl⟩ | ⟨-, rfl⟩ <;> decide

theorem writes_set {fields : Fields} {key : String} {v : Value} (hk : key ∈ statementFields) :
    writes (Fields.set fields key v) = writes fields := by
  have hw : writtenField? (Fields.set fields key v) = writtenField? fields := by
    rw [writtenField?, writtenField?, isDeletion, isDeletion, hasKind_set_statementField hk,
      get_set_statementField hk (by decide),
      fieldByKind_congr fun name => hasKind_set_statementField hk]
  rw [writes, writes, hw]
  cases h : writtenField? fields with
  | none => rfl
  | some written =>
    dsimp only
    rw [get_set_statementField hk (writtenField?_not_statementField h)]

end Value

/-! ## Renaming -/

namespace Sanitizer

variable {s : Sanitizer}

section Targets

open Value (targets targetsOfItems targetsOfField patternFields fieldByKind)

theorem fieldByKind_renamedRecord (table : List (String × String)) (fields : Fields) :
    fieldByKind table (s.renamedRecord fields) = fieldByKind table fields := by
  refine Value.fieldByKind_congr fun name => ?_
  rw [← renamed_record, hasKind_renamed]

theorem enters_of_pattern {fields : Fields} {key : String}
    (h : fieldByKind patternFields fields = some key) : s.enters fields = true := by
  obtain ⟨name, hm, hk⟩ := Value.hasKind_of_fieldByKind h
  have hn : name ∈ patternFields.map (·.1) := List.mem_map_of_mem hm
  exact enters_of_hasKind hk (fun e => absurd (e ▸ hn) (by decide))
    fun e => absurd (e ▸ hn) (by decide)

mutual

theorem targets_renamed : ∀ v : Value, (s.renamed v).targets = v.targets.map s.renamed
  | .list items => by
    rw [renamed_list, targets, targets, targetsOfItems_renamed items]
  | .record fields => by
    have hp := fieldByKind_renamedRecord (s := s) patternFields fields
    rw [renamed_record, targets, targets, hp]
    cases h : fieldByKind patternFields fields with
    | none => simp
    | some key =>
      rw [renamedRecord_of_enters (enters_of_pattern h)]
      exact targetsOfField_renamed key fields
  | .null | .bool _ | .int _ | .float _ | .text _ | .broken _ | .host _ => by
    simp [renamed, targets]

theorem targetsOfItems_renamed : ∀ items : List Value,
    targetsOfItems (s.renamedItems items) = (targetsOfItems items).map s.renamed
  | [] => by simp [renamedItems, targetsOfItems]
  | item :: rest => by
    rw [renamedItems, targetsOfItems, targetsOfItems, List.map_append, targets_renamed item,
      targetsOfItems_renamed rest]

theorem targetsOfField_renamed (key : String) : ∀ fields : List (String × Value),
    targetsOfField key (s.renamedFields fields) = (targetsOfField key fields).map s.renamed
  | [] => by simp [renamedFields, targetsOfField]
  | (k, v) :: rest => by
    rw [renamedFields, targetsOfField, targetsOfField]
    split
    · exact targets_renamed v
    · exact targetsOfField_renamed key rest

end

end Targets

section Writes

open Value (writes writesNone writtenField? isDeletion)

theorem isText_renamed (v : Value) (t : String) : (s.renamed v).isText t = v.isText t := by
  cases v with
  | list _ | record _ => simp [Value.isText]
  | _ => simp [renamed]

theorem writes_renamedFields {fields : Fields} (he : s.enters fields = true) :
    writes (s.renamedFields fields) = (writes fields).map s.renamed := by
  have hr := renamedRecord_of_enters he
  have hg : ∀ key, Fields.get (s.renamedFields fields) key = s.renamed (Fields.get fields key) := by
    intro key
    rw [Fields.get, Fields.get, get?_renamedFields]
    cases Fields.get? fields key <;> simp
  have hk := s.hasKind_renamed (.record fields) "UnaryExpression"
  rw [renamed_record, hr] at hk
  have hw : writtenField? (s.renamedFields fields) = writtenField? fields := by
    rw [writtenField?, writtenField?, isDeletion, isDeletion, hk, hg, isText_renamed, ← hr,
      fieldByKind_renamedRecord]
  rw [writes, writes, hw]
  cases writtenField? fields with
  | none => rfl
  | some key =>
    dsimp only
    rw [hg, targets_renamed]

/-- Whether renaming comes to every write in a record: an identifier, or an exempt access, must
hold none. -/
def comesToWrites (s : Sanitizer) (fields : Fields) : Bool :=
  s.enters fields || Value.everywhereFields (fun inner => (writes inner).isEmpty) fields

theorem hasKind_of_not_enters {fields : Fields} (he : s.enters fields = false) :
    ∃ name ∈ ["Identifier", "MemberExpression"], (Value.record fields).hasKind name = true := by
  by_cases hi : (Value.record fields).hasKind "Identifier" = true
  · exact ⟨"Identifier", by simp, hi⟩
  · have hx : s.exempts fields = true := by simpa [enters, hi] using he
    rw [exempts, Bool.and_eq_true] at hx
    exact ⟨"MemberExpression", by simp, hx.1⟩

theorem writes_of_not_enters {fields : Fields} (he : s.enters fields = false) :
    writes fields = [] ∧ writes (s.renamedRecord fields) = [] := by
  obtain ⟨name, hm, hk⟩ := hasKind_of_not_enters he
  have hr := (s.hasKind_renamed (.record fields) name).trans hk
  rw [renamed_record] at hr
  have hn : ∀ name ∈ ["Identifier", "MemberExpression"],
      name ∉ Value.writerFields.map (·.1) ∧ name ≠ "UnaryExpression" := by decide
  obtain ⟨ht, hd⟩ := hn name hm
  exact ⟨Value.writes_of_hasKind hk ht hd, Value.writes_of_hasKind hr ht hd⟩

theorem everywhereFields_of_not_enters {check : Fields → Bool} {fields : Fields}
    (he : s.enters fields = false) (h : Value.everywhereFields check fields = true) :
    Value.everywhereFields check (s.renamedRecord fields) = true := by
  unfold renamedRecord
  split
  · unfold renamedIdentifier
    split
    · exact h
    · exact Value.everywhereFields_set h (Value.everywhere_of_isString (s.isString_prefixed _))
  · split
    · exact h
    · rename_i hi hx
      simp [enters, hi, hx] at he

variable {sort sort' : Value → Bool}

mutual

/-- Renaming changes the sort of each write target and makes and unmakes none. -/
theorem writesNone_renamed (hs : ∀ v, sort' (s.renamed v) = sort v) : ∀ v : Value,
    v.everywhere s.comesToWrites = true → (s.renamed v).writesNone sort' = v.writesNone sort
  | .list items, h => by
    rw [renamed_list]
    exact writesNoneItems_renamed hs items h
  | .record fields, h => by
    rw [Value.everywhere, Bool.and_eq_true] at h
    rw [renamed_record, writesNone, writesNone, Value.everywhere, Value.everywhere]
    cases he : s.enters fields with
    | true =>
      rw [renamedRecord_of_enters he, writes_renamedFields he, List.any_map,
        writesNoneFields_renamed hs fields h.2]
      congr 3
      exact funext hs
    | false =>
      have hf : Value.everywhereFields (fun inner => (writes inner).isEmpty) fields = true := by
        simpa [comesToWrites, he] using h.1
      have hn : ∀ sort : Value → Bool,
          Value.everywhereFields (fun inner => !(writes inner).any sort) fields = true :=
        fun sort => Value.everywhereFields_mono (fun inner hw => by
          rw [List.isEmpty_iff.mp hw]
          rfl) fields hf
      obtain ⟨hw, hr⟩ := writes_of_not_enters he
      rw [hw, hr, hn sort, everywhereFields_of_not_enters he (hn sort')]
      rfl
  | .null, _ | .bool _, _ | .int _, _ | .float _, _ | .text _, _ | .broken _, _
  | .host _, _ => by simp [renamed, writesNone, Value.everywhere]

theorem writesNoneItems_renamed (hs : ∀ v, sort' (s.renamed v) = sort v) :
    ∀ items : List Value, Value.everywhereItems s.comesToWrites items = true →
      Value.everywhereItems (fun fields => !(writes fields).any sort') (s.renamedItems items) =
        Value.everywhereItems (fun fields => !(writes fields).any sort) items
  | [], _ => by rw [renamedItems, Value.everywhereItems, Value.everywhereItems]
  | item :: rest, h => by
    rw [Value.everywhereItems, Bool.and_eq_true] at h
    have hi : (s.renamed item).everywhere _ = item.everywhere _ := writesNone_renamed hs item h.1
    rw [renamedItems, Value.everywhereItems, Value.everywhereItems, hi,
      writesNoneItems_renamed hs rest h.2]

theorem writesNoneFields_renamed (hs : ∀ v, sort' (s.renamed v) = sort v) :
    ∀ fields : List (String × Value), Value.everywhereFields s.comesToWrites fields = true →
      Value.everywhereFields (fun fields => !(writes fields).any sort') (s.renamedFields fields) =
        Value.everywhereFields (fun fields => !(writes fields).any sort) fields
  | [], _ => by rw [renamedFields, Value.everywhereFields, Value.everywhereFields]
  | (_, v) :: rest, h => by
    rw [Value.everywhereFields, Bool.and_eq_true] at h
    have hv : (s.renamed v).everywhere _ = v.everywhere _ := writesNone_renamed hs v h.1
    rw [renamedFields, Value.everywhereFields, Value.everywhereFields, hv,
      writesNoneFields_renamed hs rest h.2]

end

end Writes

/-! ## Names of the runtime -/

/-- Whether a string starts with the prefix. -/
def bearsPrefix (s : Sanitizer) : Value → Bool
  | .text name => s.marker.toList.isPrefixOf name.toList
  | .broken t => (TextPoint.ofString s.marker).isPrefixOf t.points
  | _ => false

/-- Whether a node is an identifier that has no prefix and is not excluded. -/
def isUnprefixed (s : Sanitizer) (node : Value) : Bool :=
  node.hasKind "Identifier" && !s.isExcluded (node.field "name") &&
    !s.bearsPrefix (node.field "name")

/-- Whether a node is a plain access to the host, or becomes one: its object is an identifier with
the host's name, or with a name that becomes the host's. -/
def accessesHost (s : Sanitizer) (node : Value) : Bool :=
  node.hasKind "MemberExpression" && !(node.field "computed").truthy &&
    (node.field "object").hasKind "Identifier" &&
    (((node.field "object").field "name").isText s.host ||
      (s.newName ((node.field "object").field "name")).isText s.host)

theorem bearsPrefix_prefixed (name : Value) : s.bearsPrefix (s.prefixed name) = true := by
  cases name with
  | broken t =>
    rw [prefixed, Value.ofPoints_append_broken, bearsPrefix, List.isPrefixOf_iff_prefix]
    exact List.prefix_append _ _
  | _ =>
    rw [prefixed, bearsPrefix, List.isPrefixOf_iff_prefix, String.toList_append]
    · exact List.prefix_append _ _
    · intro t h
      cases h

/-- Every identifier has a prefix or an excluded name behind renaming. -/
theorem isUnprefixed_renamed (v : Value) : s.isUnprefixed (s.renamed v) = false := by
  rw [isUnprefixed, hasKind_renamed]
  cases v with
  | record fields =>
    by_cases hi : (Value.record fields).hasKind "Identifier" = true
    · rw [renamed_record, Value.field_record, renamedRecord, if_pos hi, get_name_renamedIdentifier,
        newName]
      split
      · rename_i he
        simp [he]
      · rw [bearsPrefix_prefixed]
        simp
    · rw [Bool.not_eq_true] at hi
      rw [hi, Bool.false_and, Bool.false_and]
  | _ => rfl

/-- A node is a plain access to the host behind renaming if it was one or if its object's name
becomes the host's. -/
theorem isPlainAccess_renamed (v : Value) :
    (s.renamed v).isPlainAccess s.host = s.accessesHost v := by
  rw [Value.isPlainAccess, accessesHost, hasKind_renamed]
  cases v with
  | record fields =>
    by_cases hm : (Value.record fields).hasKind "MemberExpression" = true
    · have hi : (Value.record fields).hasKind "Identifier" = false :=
        Value.hasKind_of_ne hm (by decide)
      have hx := exempts_eq_isPlainAccess (s := s) fields
      simp only [Value.isPlainAccess, hm, isNamed, Value.field_record, Bool.true_and] at hx
      rw [renamed_record]
      simp only [Value.field_record, hm, Bool.true_and]
      cases he : s.exempts fields with
      | true =>
        have hr : s.renamedRecord fields = fields := by simp [renamedRecord, hi, he]
        obtain ⟨hc, ho, hn⟩ : (!(Fields.get fields "computed").truthy) = true ∧
            (Fields.get fields "object").hasKind "Identifier" = true ∧
            ((Fields.get fields "object").field "name").isText s.host = true := by
          rw [← Bool.and_eq_true, ← Bool.and_eq_true, ← hx, he]
        rw [hr, isNamed, hc, ho, hn]
        rfl
      | false =>
        have hw : s.within fields = s.renamed := within_of_enters (enters_iff.mpr ⟨hi, he⟩)
        rw [he] at hx
        rw [get_renamedRecord (by decide), get_renamedRecord (by decide), hw, truthy_renamed,
          isNamed_renamed_eq]
        -- the object has not the host's name, unless the access is computed
        cases hc : !(Fields.get fields "computed").truthy with
        | false => rfl
        | true =>
          cases ho : (Fields.get fields "object").hasKind "Identifier" with
          | false => rfl
          | true =>
            rw [hc, ho, Bool.true_and, Bool.true_and] at hx
            rw [← hx]
            rfl
    · simp [hm]
  | _ => rfl

end Sanitizer

/-! ## Metering -/

section Metering

variable {m : Instrumenter} {sort : Value → Bool}

/-- Metering changes no write target, and a charge writes nothing. -/
theorem Instrumenter.tallies_writes (sort : Value → Bool) :
    m.Tallies (fun fields => (Value.writes fields).any sort) 0 where
  set fields key v hk := by rw [Value.writes_set hk]
  nil := rfl
  block statements := by
    have hb : (Value.record [("type", .text "BlockStatement"), ("body", statements)]).hasKind
        "BlockStatement" = true := rfl
    rw [Value.writes_of_hasKind hb (by decide) (by decide)]
    rfl
  charge gamma := by
    rw [Value.count_eq_zero_iff]
    rfl

theorem Instrumenter.writesNone_of_count {tree out : Value}
    (h : out.count (fun fields => (Value.writes fields).any sort) =
      tree.count fun fields => (Value.writes fields).any sort) :
    out.writesNone sort = tree.writesNone sort := by
  rw [Bool.eq_iff_iff, Value.writesNone, Value.writesNone, ← Value.count_eq_zero_iff,
    ← Value.count_eq_zero_iff, h]

theorem Instrumenter.writesNone_node {depth : Int} {tree out : Value}
    (hl : tree.listShaped = true) (h : (m.node depth tree).outcome = .ok out) :
    out.writesNone sort = tree.writesNone sort := by
  have hc := (tallies_writes sort).node hl h
  rw [Nat.zero_mul, Nat.add_zero] at hc
  exact writesNone_of_count hc

theorem Instrumenter.writesNone_statements {tree out : Value}
    (hl : tree.listShaped = true) (h : (m.statements tree).outcome = .ok out) :
    out.writesNone sort = tree.writesNone sort := by
  have hc := (tallies_writes sort).statements hl h
  rw [Nat.zero_mul, Nat.add_zero] at hc
  exact writesNone_of_count hc

end Metering

/-! ## The pipeline -/

/-- What the writes of a tree come to in another one: each identifier written to bears the prefix
or is excluded, and a plain member of the host is written to if and only if one was. -/
structure Sanitizer.GuardsWrites (s : Sanitizer) (tree out : Value) : Prop where
  names : out.writesNone s.isUnprefixed = true
  host : out.writesNone (Value.isPlainAccess s.host) = true ↔
    tree.writesNone s.accessesHost = true

theorem Sanitizer.guardsWrites_renamed {s : Sanitizer} {tree : Value}
    (hw : tree.everywhere s.comesToWrites = true) : s.GuardsWrites tree (s.renamed tree) where
  names := by
    rw [@writesNone_renamed s (fun _ => false) s.isUnprefixed isUnprefixed_renamed tree hw]
    exact Value.everywhere_mono (fun fields _ => by simp) tree hw
  host := by rw [writesNone_renamed isPlainAccess_renamed tree hw]

theorem Sanitizer.GuardsWrites.congr {s : Sanitizer} {tree renamed out : Value}
    (h : s.GuardsWrites tree renamed)
    (hc : ∀ sort, out.writesNone sort = renamed.writesNone sort) : s.GuardsWrites tree out where
  names := (hc _).trans h.names
  host := by rw [hc, h.host]

/-- **Writes reach the host only where the contract writes to it**: behind renaming and behind
metering, no write target is an identifier that neither bears the prefix nor is excluded, and some
write target is a plain member of the host if and only if the contract writes to a plain member of
the host, or of a name that becomes the host's. -/
theorem writes_reach_host_iff {s : Sanitizer} {m : Instrumenter} {tree : Value}
    (hl : tree.listShaped = true) (hw : tree.everywhere s.comesToWrites = true) :
    (∀ depth out, s.sanitize depth tree = .ok out → s.GuardsWrites tree out) ∧
    (∀ out, (renameThen s (m.node 0) tree).outcome = .ok out → s.GuardsWrites tree out) ∧
    (∀ out, (renameThen s m.statements tree).outcome = .ok out → s.GuardsWrites tree out) := by
  have hr := Sanitizer.guardsWrites_renamed hw
  have hlr : (s.renamed tree).listShaped = true := Sanitizer.listShaped_renamed hl
  refine ⟨fun depth out ho => ?_, fun out ho => ?_, fun out ho => ?_⟩
  · rw [Sanitizer.sanitize_ok ho]
    exact hr
  · rw [renameThen_of_outcome ho] at ho
    exact hr.congr fun _ => Instrumenter.writesNone_node hlr ho
  · rw [renameThen_of_outcome ho] at ho
    exact hr.congr fun _ => Instrumenter.writesNone_statements hlr ho

/-- The assignment `[a, Host.meter] = b;`, which writes to a member of the host in a pattern. -/
def hostInPattern : Value :=
  Sample.program [Sample.assignment
    (Value.node "ArrayPattern"
      [("elements", .list [MeteringCall.identifier "a", MeteringCall.callee ⟨"Host", "meter"⟩])])
    (MeteringCall.identifier "b")]

theorem writes_reach_host_iff_of_pattern :
    ∃ out, (renameThen .sample (Instrumenter.sample.node 0) hostInPattern).outcome = .ok out ∧
      out.writesNone Sanitizer.sample.isUnprefixed = true ∧
      out.writesNone (Value.isPlainAccess "Host") = false := by
  have h := @writes_reach_host_iff .sample .sample hostInPattern rfl rfl
  have hg := h.2.1 _ rfl
  refine ⟨_, rfl, hg.names, Bool.eq_false_iff.mpr fun hn => ?_⟩
  exact absurd (hg.host.mp hn) (by decide)

/-- The assignment `Host.meter = f;`. -/
def assignedHost : Value :=
  Sample.program [Sample.assignment (MeteringCall.callee Instrumenter.sample.call)
    (MeteringCall.identifier "f")]

/-- A contract can overwrite the primitive that its own charges call. -/
theorem primitive_is_overwritten :
    ∃ renamed out, Sanitizer.sample.sanitize 0 assignedHost = .ok renamed ∧
      renamed.writesNone (Value.isPlainAccess "Host") = false ∧
      (renameThen .sample (Instrumenter.sample.node 0) assignedHost).outcome = .ok out ∧
      out.writesNone (Value.isPlainAccess "Host") = false :=
  ⟨_, _, rfl, rfl, rfl, rfl⟩

end ContractMeter
