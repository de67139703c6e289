import ContractMeter.Proofs.Acceptance
import ContractMeter.Proofs.HostAccess

/-!
# ContractMeter.Proofs.Exposure

What renaming does at each position of a tree.

* `Value.outline` — a value without what its parts hold.
* `Value.Exposed` — positions that no identifier and no plain access to the host lies above.
* `Sanitizer.at?_renamed` — at an exposed position of a renamed tree stands the renamed part.
* `Sanitizer.outline_at?_renamed` — elsewhere, and but for the names, nothing changes.
* `sanitize_changes_names_only` — for the sanitizer, with the parts of the two kinds of access.
-/

namespace ContractMeter

open MeteringCall (isNamed)

namespace Value

/-- The keys of a record, the length of a list, any other value as it is. -/
def outline : Value → Value
  | .list items => .list (items.map fun _ => .null)
  | .record fields => .record (fields.map fun field => (field.1, .null))
  | v => v

/-- Whether renaming does not go into a value: it is an identifier or a plain access to the
host. -/
def isSealed (host : String) (v : Value) : Bool :=
  v.hasKind "Identifier" || v.isPlainAccess host

/-- Whether a node is a computed member access on an identifier of a name. -/
def isComputedAccess (host : String) (node : Value) : Bool :=
  node.hasKind "MemberExpression" && (node.field "computed").truthy &&
    isNamed (node.field "object") host

/-- Whether nothing above a position is sealed. The position itself may be. -/
def Exposed (host : String) (tree : Value) (path : Path) : Prop :=
  ∀ front back v, path = front ++ back → back ≠ [] → tree.at? front = some v →
    v.isSealed host = false

theorem at?_of_isString {v : Value} (h : v.isString = true) {edge : Edge} {rest : Path} :
    v.at? (edge :: rest) = none := by
  cases v with
  | text _ | broken _ => cases edge <;> rfl
  | _ => cases h

section Exposed

variable {host : String} {v w : Value} {edge : Edge} {rest : Path}

theorem exposed_nil : v.Exposed host [] := by
  intro front back u hp hb
  exact absurd (List.append_eq_nil_iff.mp hp.symm).2 hb

theorem exposed_cons : v.Exposed host (edge :: rest) ↔
    v.isSealed host = false ∧ ∀ w, v.child? edge = some w → w.Exposed host rest := by
  constructor
  · intro h
    refine ⟨h [] (edge :: rest) v rfl (List.cons_ne_nil _ _) rfl, fun w hw front back u hp hb hu => ?_⟩
    exact h (edge :: front) back u (by rw [hp]; rfl) hb ((at?_of_child? hw).trans hu)
  · rintro ⟨hv, hr⟩ front back u hp hb hu
    cases front with
    | nil =>
      rw [at?_nil, Option.some.injEq] at hu
      rw [← hu]
      exact hv
    | cons edge' front =>
      rw [List.cons_append, List.cons.injEq] at hp
      obtain ⟨rfl, hp⟩ := hp
      obtain ⟨w, hw, hu⟩ := at?_cons.mp hu
      exact hr w hw front back u hp hb hu

theorem Exposed.child {w : Value} (h : v.Exposed host (edge :: rest)) (hw : v.child? edge = some w) :
    w.Exposed host rest :=
  (exposed_cons.mp h).2 w hw

/-- Below an exposed position, the parts of what stands there are exposed unless it is sealed. -/
theorem Exposed.append {front back : Path} (h : v.Exposed host front)
    (hw : v.at? front = some w) (hb : w.Exposed host back) : v.Exposed host (front ++ back) := by
  induction front generalizing v with
  | nil =>
    rw [at?_nil, Option.some.injEq] at hw
    rw [hw]
    exact hb
  | cons edge rest ih =>
    obtain ⟨u, hu, hr⟩ := at?_cons.mp hw
    rw [List.cons_append, exposed_cons]
    refine ⟨(exposed_cons.mp h).1, fun u' hu' => ?_⟩
    rw [hu, Option.some.injEq] at hu'
    rw [← hu']
    exact ih (h.child hu) hr

theorem exposed_singleton (h : v.isSealed host = false) : v.Exposed host [edge] :=
  exposed_cons.mpr ⟨h, fun _ _ => exposed_nil⟩

theorem isSealed_of_isComputedAccess (h : v.isComputedAccess host = true) :
    v.isSealed host = false := by
  rw [isComputedAccess, Bool.and_eq_true, Bool.and_eq_true] at h
  obtain ⟨⟨hm, hc⟩, -⟩ := h
  rw [isSealed, hasKind_of_ne hm (by decide), isPlainAccess, hm, hc]
  rfl

end Exposed

end Value

namespace Sanitizer

variable {s : Sanitizer} {v w : Value} {path : Path}

theorem isString_newName (h : v.isString = true) : (s.newName v).isString = true := by
  unfold newName
  split
  · exact h
  · exact s.isString_prefixed v

theorem enters_eq_not_isSealed (fields : Fields) :
    s.enters fields = !(Value.record fields).isSealed s.host := by
  rw [enters, exempts_eq_isPlainAccess, Value.isSealed, Bool.not_or]

/-! ## Exposed positions -/

theorem child?_renamed_of_unsealed {edge : Edge} (h : v.isSealed s.host = false) :
    (s.renamed v).child? edge = (v.child? edge).map s.renamed := by
  cases v with
  | list items =>
    cases edge with
    | field name => simp [Value.child?]
    | item i => simp [renamedItems_eq_map]
  | record fields =>
    have he : s.enters fields = true := by rw [enters_eq_not_isSealed, h, Bool.not_false]
    cases edge with
    | field name => simp [renamedRecord_of_enters he, get?_renamedFields]
    | item i => simp [Value.child?]
  | _ => simp [renamed, Value.child?]

theorem at?_renamed (h : v.Exposed s.host path) :
    (s.renamed v).at? path = (v.at? path).map s.renamed := by
  induction path generalizing v with
  | nil => rfl
  | cons edge rest ih =>
    rw [Value.at?, Value.at?, child?_renamed_of_unsealed (Value.exposed_cons.mp h).1]
    cases hc : v.child? edge with
    | none => rfl
    | some u => exact ih (h.child hc)

theorem accepts_child? {levels : Nat} {edge : Edge} (ha : s.accepts (levels + 1) v = true)
    (h : v.isSealed s.host = false) (hw : v.child? edge = some w) : s.accepts levels w = true := by
  cases v with
  | list items =>
    cases edge with
    | field name => cases hw
    | item i =>
      rw [accepts, List.all_eq_true] at ha
      exact ha w (List.mem_of_getElem? hw)
  | record fields =>
    cases edge with
    | field name =>
      rw [Value.isSealed, Bool.or_eq_false_iff] at h
      rw [accepts, if_neg (by rw [h.1]; decide), exempts_eq_isPlainAccess, h.2, Bool.false_or,
        List.all_eq_true] at ha
      exact ha (name, w) (Fields.mem_of_get? hw)
    | item i => cases hw
  | _ => cases edge <;> cases hw

theorem accepts_at? {levels : Nat} (ha : s.accepts levels v = true) (h : v.Exposed s.host path)
    (hw : v.at? path = some w) : s.accepts (levels - path.length) w = true := by
  induction path generalizing v levels with
  | nil =>
    cases hw
    exact ha
  | cons edge rest ih =>
    obtain ⟨u, hu, hr⟩ : ∃ u, v.child? edge = some u ∧ u.at? rest = some w := Value.at?_cons.mp hw
    cases levels with
    | zero => cases ha
    | succ levels =>
      rw [List.length_cons, Nat.succ_sub_succ]
      exact ih (accepts_child? ha (Value.exposed_cons.mp h).1 hu) (h.child hu) hr

/-- What stands at an exposed position is renamed as it is on its own, that far down. -/
theorem sanitize_at? {depth : Int} {out : Value} (ho : s.sanitize depth v = .ok out)
    (h : v.Exposed s.host path) (hw : v.at? path = some w) :
    ∃ w', s.sanitize (depth + path.length) w = .ok w' ∧ out.at? path = some w' := by
  obtain ⟨ha, rfl⟩ := sanitizeAt_eq_ok_iff.mp ho
  refine ⟨s.renamed w, sanitizeAt_eq_ok_iff.mpr ⟨?_, rfl⟩, by rw [at?_renamed h, hw]; rfl⟩
  have hl : levelsLeft s.maxDepth (depth + path.length) =
      levelsLeft s.maxDepth depth - path.length := by
    unfold levelsLeft
    omega
  rw [hl]
  exact accepts_at? ha h hw

/-! ## Everything but names -/

/-- Whether a position is the name of an exposed identifier that gets the prefix. -/
def Prefixes (s : Sanitizer) (tree : Value) (path : Path) : Prop :=
  ∃ front fields, path = front ++ [.field "name"] ∧ tree.Exposed s.host front ∧
    tree.at? front = some (.record fields) ∧
    (Value.record fields).hasKind "Identifier" = true ∧
    s.isExcluded (Fields.get fields "name") = false

theorem Prefixes.cons {edge : Edge} (hv : v.isSealed s.host = false)
    (hw : v.child? edge = some w) (h : s.Prefixes w path) : s.Prefixes v (edge :: path) := by
  obtain ⟨front, fields, rfl, hf, ha, hi⟩ := h
  have he : v.at? [edge] = some w := Value.at?_of_child? hw
  exact ⟨edge :: front, fields, rfl, (Value.exposed_singleton hv).append he hf,
    (Value.at?_of_child? hw).trans ha, hi⟩

theorem outline_renamed (hn : v.namesAreStrings = true) : (s.renamed v).outline = v.outline := by
  cases v with
  | list items => simp [Value.outline, renamedItems_eq_map, Function.comp_def]
  | record fields =>
    have hk := keys_renamedRecord (s := s) (Value.check_of_everywhere hn)
    have hm := congrArg (List.map fun key => (key, Value.null)) hk
    simpa [Value.outline, Function.comp_def] using hm
  | _ => simp [renamed, Value.outline]

theorem renamed_of_isPlainAccess (h : v.isPlainAccess s.host = true) : s.renamed v = v := by
  cases v with
  | record fields =>
    have hm : (Value.record fields).hasKind "MemberExpression" = true := by
      rw [Value.isPlainAccess, Bool.and_assoc, Bool.and_eq_true] at h
      exact h.1
    rw [← exempts_eq_isPlainAccess] at h
    rw [renamed_record, renamedRecord, Value.hasKind_of_ne hm (by decide), if_neg (by decide),
      if_pos h]
  | _ => cases h

/-- Of an identifier only the name changes, and that only if it is not excluded. -/
theorem at?_renamedIdentifier {fields : Fields} {edge : Edge} {rest : Path}
    (hs : (Fields.get fields "name").isString = true)
    (hx : edge :: rest = [.field "name"] → s.isExcluded (Fields.get fields "name") = true) :
    (Value.record (s.renamedIdentifier fields)).at? (edge :: rest) =
      (Value.record fields).at? (edge :: rest) := by
  cases edge with
  | item i => rfl
  | field key =>
    rw [renamedIdentifier_eq hs]
    by_cases hk : key = "name"
    · subst hk
      rw [Value.at?_field (Fields.get?_set_self _ _ _), Value.at?_field (Value.get?_of_isString hs)]
      cases rest with
      | nil => rw [newName, if_pos (hx rfl)]
      -- both names are strings, which have no parts
      | cons edge rest => rw [Value.at?_of_isString hs, Value.at?_of_isString (isString_newName hs)]
    · rw [Value.at?, Value.at?, Value.child?_field, Value.child?_field, Fields.get?_set_of_ne hk]

/-- Below what is sealed nothing changes but the name of an identifier that is itself exposed. -/
theorem at?_renamed_of_not_exposed (hn : v.namesAreStrings = true)
    (he : ¬ v.Exposed s.host path) (hp : ¬ s.Prefixes v path) :
    (s.renamed v).at? path = v.at? path := by
  induction path generalizing v with
  | nil => exact absurd Value.exposed_nil he
  | cons edge rest ih =>
    cases hv : v.isSealed s.host with
    | false =>
      rw [Value.at?, Value.at?, child?_renamed_of_unsealed hv]
      cases hc : v.child? edge with
      | none => rfl
      | some u =>
        refine ih (Value.everywhere_child? hn hc) (fun hu => he ?_) fun hu => hp (hu.cons hv hc)
        exact (Value.exposed_singleton hv).append (Value.at?_of_child? hc) hu
    | true =>
      by_cases hi : v.hasKind "Identifier" = true
      · cases v with
        | record fields =>
          have hs := Value.check_of_everywhere hn
          rw [Value.hasStringName, hi, Bool.not_true, Bool.false_or] at hs
          rw [renamed_record, renamedRecord, if_pos hi]
          refine at?_renamedIdentifier hs fun hname => ?_
          cases hx : s.isExcluded (Fields.get fields "name") with
          | true => rfl
          | false => exact absurd ⟨[], fields, hname, Value.exposed_nil, rfl, hi, hx⟩ hp
        | _ => cases hi
      · rw [Value.isSealed, Bool.eq_false_iff.mpr hi, Bool.false_or] at hv
        rw [renamed_of_isPlainAccess hv]

theorem outline_at?_renamed (hn : v.namesAreStrings = true) (hp : ¬ s.Prefixes v path) :
    ((s.renamed v).at? path).map Value.outline = (v.at? path).map Value.outline := by
  by_cases he : v.Exposed s.host path
  · rw [at?_renamed he]
    cases hw : v.at? path with
    | none => rfl
    | some w => exact congrArg some (outline_renamed (Value.everywhere_at? hn hw))
  · rw [at?_renamed_of_not_exposed hn he hp]

theorem at?_renamed_of_prefixes {front : Path} {fields : Fields}
    (hf : v.Exposed s.host front) (ha : v.at? front = some (.record fields))
    (hi : (Value.record fields).hasKind "Identifier" = true)
    (hx : s.isExcluded (Fields.get fields "name") = false) :
    (s.renamed v).at? (front ++ [.field "name"]) =
      some (s.prefixed (Fields.get fields "name")) := by
  have hr : (s.renamed v).at? front = some (.record (s.renamedIdentifier fields)) := by
    rw [at?_renamed hf, ha, Option.map_some, renamed_record, renamedRecord, if_pos hi]
  rw [Value.at?_append hr, renamedIdentifier, hx, if_neg (by decide),
    Value.at?_field (Fields.get?_set_self _ _ _), Value.at?_nil]

/-- A plain access to the host stays as it is, wherever it stands. -/
theorem at?_renamed_of_isPlainAccess (hn : v.namesAreStrings = true) (hw : v.at? path = some w)
    (hp : w.isPlainAccess s.host = true) : (s.renamed v).at? path = some w := by
  by_cases he : v.Exposed s.host path
  · rw [at?_renamed he, hw, Option.map_some, renamed_of_isPlainAccess hp]
  · rw [at?_renamed_of_not_exposed hn he, hw]
    -- the name of an identifier is a string and no access
    rintro ⟨front, fields, rfl, -, ha, hi, -⟩
    have hs := Value.check_of_everywhere (Value.everywhere_at? hn ha)
    rw [Value.hasStringName, hi, Bool.not_true, Bool.false_or] at hs
    rw [Value.at?_append ha, Value.at?_field (Value.get?_of_isString hs), Value.at?_nil,
      Option.some.injEq] at hw
    rw [hw] at hs
    cases w with
    | text _ | broken _ => cases hp
    | _ => cases hs

end Sanitizer

/-- **Sanitization changes names and nothing else.** Positions other than the names of exposed
identifiers that are not excluded keep their keys, lengths and scalars; those names get the prefix;
plain accesses to the host stay as they are, down to their leaves; the object and the property of a
computed access to it are sanitized like any other node. -/
theorem sanitize_changes_names_only {s : Sanitizer} {depth : Int} {tree out : Value}
    (hn : tree.namesAreStrings = true) (ho : s.sanitize depth tree = .ok out) :
    (∀ path, ¬ s.Prefixes tree path →
      (out.at? path).map Value.outline = (tree.at? path).map Value.outline) ∧
    (∀ path fields, tree.Exposed s.host path → tree.at? path = some (.record fields) →
      (Value.record fields).hasKind "Identifier" = true →
      s.isExcluded (Fields.get fields "name") = false →
      out.at? (path ++ [.field "name"]) = some (s.prefixed (Fields.get fields "name"))) ∧
    (∀ path access, tree.at? path = some access → access.isPlainAccess s.host = true →
      out.at? path = some access) ∧
    (∀ path access, tree.Exposed s.host path → tree.at? path = some access →
      access.isComputedAccess s.host = true →
      ∀ key ∈ ["object", "property"], ∀ part, access.field? key = some part →
        ∃ part', s.sanitize (depth + path.length + 1) part = .ok part' ∧
          out.at? (path ++ [.field key]) = some part') := by
  have hr := Sanitizer.sanitize_ok ho
  refine ⟨fun path hp => ?_, fun path fields hf ha hi hx => ?_, fun path access ha hp => ?_,
    fun path access hf ha hc key _ part hpart => ?_⟩
  · rw [hr]
    exact Sanitizer.outline_at?_renamed hn hp
  · rw [hr]
    exact Sanitizer.at?_renamed_of_prefixes hf ha hi hx
  · rw [hr]
    exact Sanitizer.at?_renamed_of_isPlainAccess hn ha hp
  · have hk : access.child? (.field key) = some part := by
      cases access with
      | record fields => exact hpart
      | _ => cases hpart
    have he : tree.Exposed s.host (path ++ [.field key]) :=
      hf.append ha (Value.exposed_singleton (Value.isSealed_of_isComputedAccess hc))
    have hp : tree.at? (path ++ [.field key]) = some part :=
      (Value.at?_append ha).trans (Value.at?_of_child? hk)
    have hd : depth + ((path ++ [Edge.field key]).length : Nat) = depth + path.length + 1 := by
      rw [List.length_append, List.length_singleton]
      omega
    rw [← hd]
    exact Sanitizer.sanitize_at? ho he hp

/-- The assignment `Host.next = Host[b];`, with an access to the host of each kind. -/
def Sample.hostAssignment : Value :=
  assignment (MeteringCall.callee ⟨"Host", "next"⟩)
    (Value.node "MemberExpression" [("computed", .bool true),
      ("object", MeteringCall.identifier "Host"), ("property", MeteringCall.identifier "b")])

theorem sanitize_changes_names_only_of_hostAssignment :
    ∃ out, Sanitizer.sample.sanitize 0 Sample.hostAssignment = .ok out ∧
      out.at? [.field "expression", .field "left"] =
        some (MeteringCall.callee ⟨"Host", "next"⟩) ∧
      ∃ object, Sanitizer.sample.sanitize 3 (MeteringCall.identifier "Host") = .ok object ∧
        out.at? [.field "expression", .field "right", .field "object"] = some object := by
  obtain ⟨-, -, hplain, hcomputed⟩ :=
    @sanitize_changes_names_only .sample 0 Sample.hostAssignment _ rfl rfl
  refine ⟨_, rfl, hplain _ _ rfl rfl,
    hcomputed [.field "expression", .field "right"] _ ?_ rfl rfl "object" (by decide) _ rfl⟩
  refine Value.exposed_cons.mpr ⟨rfl, fun v hv => ?_⟩
  cases hv
  exact Value.exposed_singleton rfl

end ContractMeter
