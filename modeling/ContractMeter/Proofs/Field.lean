import ContractMeter.Tree.Node

/-!
# ContractMeter.Proofs.Field

Reading a field after another was written, and the sizes of parts of a tree.

* `Fields.get?_set`, `Fields.set_set`, `Fields.set_comm` — reading and overwriting.
* `Fields.sizeOf_get` — parts are smaller than what holds them.
* `Value.hasKind_set` — a node keeps its kind when another field changes.
-/

namespace ContractMeter

namespace Fields

theorem get?_cons (key other : String) (v : Value) (rest : Fields) :
    get? ((key, v) :: rest) other = if other = key then some v else get? rest other := by
  by_cases h : other = key
  · subst h
    simp [get?]
  · have hb : (other == key) = false := beq_false_of_ne h
    simp [get?, List.lookup_cons, hb, h]

theorem get_of_get? {fields : Fields} {key : String} {v : Value} (h : get? fields key = some v) :
    get fields key = v := by
  rw [get, h, Option.getD_some]

theorem mem_of_get? {fields : Fields} {key : String} {v : Value}
    (h : get? fields key = some v) : (key, v) ∈ fields := by
  obtain ⟨front, back, hf, -⟩ := List.lookup_eq_some_iff.mp h
  rw [hf]
  exact List.mem_append_right _ (List.mem_cons_self)

@[simp]
theorem get?_set_self (fields : Fields) (key : String) (v : Value) :
    get? (set fields key v) key = some v := by
  induction fields with
  | nil => simp [set, get?]
  | cons field rest ih =>
    obtain ⟨k, w⟩ := field
    by_cases hk : k = key
    · simp [set, hk, get?_cons]
    · simp [set, hk, get?_cons, Ne.symm hk, ih]

theorem get?_set_of_ne {fields : Fields} {key other : String} {v : Value} (h : other ≠ key) :
    get? (set fields key v) other = get? fields other := by
  induction fields with
  | nil => simp [set, get?_cons, h]
  | cons field rest ih =>
    obtain ⟨k, w⟩ := field
    by_cases hk : k = key
    · subst hk
      simp [set, get?_cons, h]
    · simp [set, hk, get?_cons, ih]

theorem get?_set (fields : Fields) (key other : String) (v : Value) :
    get? (set fields key v) other = if other = key then some v else get? fields other := by
  by_cases h : other = key
  · subst h
    simp
  · simp [h, get?_set_of_ne h]

theorem get_set (fields : Fields) (key other : String) (v : Value) :
    get (set fields key v) other = if other = key then v else get fields other := by
  unfold get
  rw [get?_set]
  split <;> rfl

@[simp]
theorem set_set (fields : Fields) (key : String) (v w : Value) :
    set (set fields key v) key w = set fields key w := by
  induction fields with
  | nil => simp [set]
  | cons field rest ih =>
    obtain ⟨k, u⟩ := field
    by_cases hk : k = key
    · simp [set, hk]
    · simp [set, hk, ih]

theorem set_comm (key other : String) {fields : Fields} {v w : Value} (h : key ≠ other)
    (hk : (get? fields key).isSome) :
    set (set fields other v) key w = set (set fields key w) other v := by
  induction fields with
  | nil => cases hk
  | cons field rest ih =>
    obtain ⟨k, x⟩ := field
    by_cases h₁ : k = key
    · subst h₁
      simp [set, h]
    · by_cases h₂ : k = other
      · subst h₂
        simp [set, h₁]
      · rw [get?_cons, if_neg (Ne.symm h₁)] at hk
        simp [set, h₁, h₂, ih hk]

theorem keys_set {fields : Fields} {key : String} {v : Value} (h : (get? fields key).isSome) :
    (set fields key v).map (·.1) = fields.map (·.1) := by
  induction fields with
  | nil => cases h
  | cons field rest ih =>
    obtain ⟨k, w⟩ := field
    by_cases hk : k = key
    · simp [set, hk]
    · rw [get?_cons, if_neg (Ne.symm hk)] at h
      simp [set, hk, ih h]

theorem sizeOf_pos (fields : Fields) : 0 < sizeOf fields := by
  cases fields with
  | nil => simp
  | cons field rest =>
    rw [List.cons.sizeOf_spec]
    omega

theorem sizeOf_get? {fields : Fields} {key : String} {v : Value} (h : get? fields key = some v) :
    sizeOf v < sizeOf fields := by
  induction fields with
  | nil => simp [get?] at h
  | cons field rest ih =>
    obtain ⟨k, u⟩ := field
    simp only [get?_cons] at h
    split at h
    · cases h
      simp only [List.cons.sizeOf_spec, Prod.mk.sizeOf_spec]
      omega
    · have := ih h
      simp only [List.cons.sizeOf_spec]
      omega

theorem sizeOf_get (fields : Fields) (key : String) :
    sizeOf (get fields key) < sizeOf (Value.record fields) := by
  simp only [get, Value.record.sizeOf_spec]
  cases h : get? fields key with
  | none =>
    simpa using sizeOf_pos fields
  | some v =>
    have := sizeOf_get? h
    simp only [Option.getD_some]
    omega

end Fields

namespace Value

def node (kind : String) (fields : Fields) : Value :=
  .record (("type", .text kind) :: fields)

@[simp]
theorem field?_record (fields : Fields) (key : String) :
    (record fields).field? key = Fields.get? fields key := rfl

@[simp]
theorem field_record (fields : Fields) (key : String) :
    (record fields).field key = Fields.get fields key := rfl

theorem kind_set {fields : Fields} {key : String} {v : Value} (h : key ≠ "type") :
    (record (Fields.set fields key v)).kind = (record fields).kind := by
  simp [kind, Fields.get?_set_of_ne h.symm, typeName]

theorem hasKind_set {fields : Fields} {key name : String} {v : Value} (h : key ≠ "type") :
    (record (Fields.set fields key v)).hasKind name = (record fields).hasKind name := by
  simp only [hasKind, isNode, kind_set h, field?_record, Fields.get?_set_of_ne h.symm]

theorem hasKind_iff {v : Value} {name : String} :
    v.hasKind name = true ↔ v.field? "type" = some (.text name) := by
  unfold hasKind isNode kind
  cases h : v.field? "type" with
  | none => simp
  | some t => cases t <;> simp [isText]

theorem eq_of_hasKind {v : Value} {name other : String} (h : v.hasKind name = true)
    (h' : v.hasKind other = true) : name = other := by
  have e := (hasKind_iff.mp h).symm.trans (hasKind_iff.mp h')
  simpa using e

theorem hasKind_of_ne {v : Value} {name other : String} (h : v.hasKind name = true)
    (hne : name ≠ other) : v.hasKind other = false := by
  cases ho : v.hasKind other with
  | false => rfl
  | true => exact absurd (eq_of_hasKind h ho) hne

end Value

end ContractMeter
