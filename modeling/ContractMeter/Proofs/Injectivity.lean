import ContractMeter.Proofs.Commutation
import ContractMeter.Proofs.Conservation

/-!
# ContractMeter.Proofs.Injectivity

When renaming loses nothing.

* `Sanitizer.KeepsApart` — no name that gets the prefix becomes an excluded one.
* `Sanitizer.oldName_newName` — then the new name of a string tells the old one.
* `Sanitizer.restored_renamed` — and, if no new name is the host's, the renamed tree tells the
  tree.
* `renaming_is_injective` — for the sanitizer, with the converse for names.
-/

namespace ContractMeter

open MeteringCall (isNamed)

theorem Value.ofPoints_points (t : BrokenText) : ofPoints t.points = .broken t := by
  unfold ofPoints
  split
  · rename_i cs h
    rw [t.broken] at h
    cases h
  · rfl

theorem Fields.set_get {fields : Fields} {key : String} {v : Value}
    (h : get? fields key = some v) : set fields key v = fields := by
  induction fields with
  | nil => cases h
  | cons field rest ih =>
    obtain ⟨k, w⟩ := field
    rw [get?_cons] at h
    by_cases hk : k = key
    · subst hk
      rw [if_pos rfl, Option.some.injEq] at h
      subst h
      simp [set]
    · rw [if_neg (Ne.symm hk)] at h
      simp [set, hk, ih h]

theorem Value.comparable_of_isString {v : Value} (h : v.isString = true) : v.comparable = true := by
  cases v with
  | text _ | broken _ => rfl
  | _ => cases h

theorem Value.get?_of_isString {fields : Fields} {key : String}
    (h : (Fields.get fields key).isString = true) :
    Fields.get? fields key = some (Fields.get fields key) := by
  cases hg : Fields.get? fields key with
  | none =>
    rw [Fields.get, hg] at h
    cases h
  | some v => rw [Fields.get_of_get? hg]

namespace Sanitizer

/-! ## Names -/

section Names

variable (s : Sanitizer)

/-- No name that gets the prefix becomes an excluded name. -/
def KeepsApart : Prop :=
  ∀ name, s.excluded.contains name = false → s.excluded.contains (s.marker ++ name) = false

/-- The name that an identifier with this name gets. -/
def newName (name : Value) : Value :=
  if s.isExcluded name then name else s.prefixed name

/-- The rest of a string behind as many points as the prefix has. -/
def unprefixed : Value → Value
  | .text name => .text (String.ofList (name.toList.drop s.marker.toList.length))
  | .broken t => .ofPoints (t.points.drop (TextPoint.ofString s.marker).length)
  | name => name

/-- The name that an identifier with this new name had. -/
def oldName (name : Value) : Value :=
  if s.isExcluded name then name else s.unprefixed name

variable {s}

theorem unprefixed_prefixed {name : Value} (h : name.isString = true) :
    s.unprefixed (s.prefixed name) = name := by
  cases name with
  | text name => simp [prefixed, Value.display, unprefixed]
  | broken t =>
    rw [prefixed, Value.ofPoints_append_broken, unprefixed, List.drop_left, Value.ofPoints_points]
  | _ => cases h

theorem isExcluded_prefixed (hp : s.KeepsApart) {name : Value} (hs : name.isString = true)
    (h : s.isExcluded name = false) : s.isExcluded (s.prefixed name) = false := by
  cases name with
  | text name => exact hp name h
  | broken t =>
    rw [prefixed, Value.ofPoints_append_broken]
    rfl
  | _ => cases hs

theorem oldName_newName (hp : s.KeepsApart) {name : Value} (hs : name.isString = true) :
    s.oldName (s.newName name) = name := by
  unfold newName
  split
  · rename_i he
    rw [oldName, if_pos he]
  · rename_i he
    rw [Bool.not_eq_true] at he
    rw [oldName, isExcluded_prefixed hp hs he, unprefixed_prefixed hs]
    rfl

theorem renamedIdentifier_eq {fields : Fields} (hs : (Fields.get fields "name").isString = true) :
    s.renamedIdentifier fields =
      Fields.set fields "name" (s.newName (Fields.get fields "name")) := by
  unfold renamedIdentifier newName
  split
  · exact (Fields.set_get (Value.get?_of_isString hs)).symm
  · rfl

theorem get_name_renamedIdentifier (fields : Fields) :
    Fields.get (s.renamedIdentifier fields) "name" = s.newName (Fields.get fields "name") := by
  unfold renamedIdentifier newName
  split
  · rfl
  · rw [Fields.get_set, if_pos rfl]

theorem isNamed_renamed_eq (v : Value) (name : String) :
    isNamed (s.renamed v) name =
      (v.hasKind "Identifier" && (s.newName (v.field "name")).isText name) := by
  rw [isNamed, hasKind_renamed]
  cases v with
  | record fields =>
    by_cases hi : (Value.record fields).hasKind "Identifier" = true
    · rw [renamed_record, Value.field_record, renamedRecord, if_pos hi, get_name_renamedIdentifier,
        Value.field_record]
    · rw [Bool.not_eq_true] at hi
      rw [hi, Bool.false_and, Bool.false_and]
  | _ => rfl

theorem rename_eq {fields : Fields} (hs : (Fields.get fields "name").isString = true) :
    s.rename fields =
      .ok (.record (Fields.set fields "name" (s.newName (Fields.get fields "name")))) := by
  rw [← renamedIdentifier_eq hs, rename, Value.comparable_of_isString hs, renamedIdentifier]
  split
  · rename_i h
    cases h
  · split <;> rfl

theorem rename_set (fields : Fields) {name : Value} (hs : name.isString = true) :
    s.rename (Fields.set fields "name" name) =
      .ok (.record (Fields.set fields "name" (s.newName name))) := by
  have hg : Fields.get (Fields.set fields "name" name) "name" = name := by
    rw [Fields.get_set, if_pos rfl]
  rw [rename_eq (by rwa [hg]), hg, Fields.set_set]

/-- Names that get different new names are exactly those of a prefix that keeps excluded names
apart. -/
theorem newName_injective_iff :
    (∀ a b : Value, a.isString = true → b.isString = true → s.newName a = s.newName b → a = b) ↔
      s.KeepsApart := by
  constructor
  · intro h name hn
    refine Bool.eq_false_iff.mpr fun he => ?_
    have hnew : s.newName (.text name) = s.newName (.text (s.marker ++ name)) := by
      simp only [newName, isExcluded, hn, he, prefixed, Value.display, Bool.false_eq_true, if_false,
        if_true]
    have heq := h (.text name) (.text (s.marker ++ name)) rfl rfl hnew
    rw [Value.text.injEq] at heq
    rw [← heq, hn] at he
    cases he
  · intro hp a b ha hb h
    calc
      a = s.oldName (s.newName a) := (oldName_newName hp ha).symm
      _ = s.oldName (s.newName b) := by rw [h]
      _ = b := oldName_newName hp hb

end Names

/-! ## Trees -/

section Trees

variable (s : Sanitizer)

/-- The fields of an identifier under its old name. -/
def restoredIdentifier (fields : Fields) : Fields :=
  Fields.set fields "name" (s.oldName (Fields.get fields "name"))

mutual

/-- The tree with every identifier under its old name. -/
def restored (s : Sanitizer) : Value → Value
  | .list items => .list (restoredItems s items)
  | .record fields =>
    if (Value.record fields).hasKind "Identifier" then .record (s.restoredIdentifier fields)
    else if s.exempts fields then .record fields
    else .record (restoredFields s fields)
  | v => v

def restoredItems (s : Sanitizer) : List Value → List Value
  | [] => []
  | item :: rest => restored s item :: restoredItems s rest

def restoredFields (s : Sanitizer) : List (String × Value) → List (String × Value)
  | [] => []
  | (key, v) :: rest => (key, restored s v) :: restoredFields s rest

end

variable {s}

theorem restoredIdentifier_renamedIdentifier (hp : s.KeepsApart) {fields : Fields}
    (hs : (Fields.get fields "name").isString = true) :
    s.restoredIdentifier (s.renamedIdentifier fields) = fields := by
  rw [renamedIdentifier_eq hs, restoredIdentifier, Fields.get_set, if_pos rfl, Fields.set_set,
    oldName_newName hp hs, Fields.set_get (Value.get?_of_isString hs)]

mutual

/-- Renaming can be undone: the kinds of nodes and the exempt accesses are the same in the renamed
tree, so the way down to each name is. -/
theorem restored_renamed (hp : s.KeepsApart) (hh : s.KeepsOffHost) :
    ∀ v : Value, v.namesAreStrings = true → s.restored (s.renamed v) = v
  | .list items, h => by
    rw [renamed_list, restored, restoredItems_renamedItems hp hh items h]
  | .record fields, h => by
    have hk := s.hasKind_renamed (.record fields) "Identifier"
    have he := exempts_renamedRecord hh h
    rw [Value.namesAreStrings, Value.everywhere, Bool.and_eq_true] at h
    rw [renamed_record] at hk ⊢
    rw [restored, hk, he]
    unfold renamedRecord
    split
    · rename_i hi
      have hs : (Fields.get fields "name").isString = true := by
        simpa [Value.hasStringName, hi] using h.1
      rw [restoredIdentifier_renamedIdentifier hp hs]
    · split
      · rfl
      · rw [restoredFields_renamedFields hp hh fields h.2]
  | .null, _ | .bool _, _ | .int _, _ | .float _, _ | .text _, _ | .broken _, _
  | .host _, _ => by simp [renamed, restored]

theorem restoredItems_renamedItems (hp : s.KeepsApart) (hh : s.KeepsOffHost) :
    ∀ items : List Value, Value.everywhereItems Value.hasStringName items = true →
      s.restoredItems (s.renamedItems items) = items
  | [], _ => by rw [renamedItems, restoredItems]
  | item :: rest, h => by
    rw [Value.everywhereItems, Bool.and_eq_true] at h
    rw [renamedItems, restoredItems, restored_renamed hp hh item h.1,
      restoredItems_renamedItems hp hh rest h.2]

theorem restoredFields_renamedFields (hp : s.KeepsApart) (hh : s.KeepsOffHost) :
    ∀ fields : List (String × Value),
      Value.everywhereFields Value.hasStringName fields = true →
        s.restoredFields (s.renamedFields fields) = fields
  | [], _ => by rw [renamedFields, restoredFields]
  | (key, v) :: rest, h => by
    rw [Value.everywhereFields, Bool.and_eq_true] at h
    rw [renamedFields, restoredFields, restored_renamed hp hh v h.1,
      restoredFields_renamedFields hp hh rest h.2]

end

end Trees

end Sanitizer

/-- **Renaming is injective exactly when configured safely**: identifiers that differ in their
names stay different if and only if the prefix makes no name an excluded one. If it makes none the
host's either, every tree is recovered from what sanitizing makes of it, at any depth. -/
theorem renaming_is_injective (s : Sanitizer) :
    ((∀ (fields : Fields) (a b : Value), a.isString = true → b.isString = true →
        s.rename (Fields.set fields "name" a) = s.rename (Fields.set fields "name" b) → a = b) ↔
      s.KeepsApart) ∧
    (s.KeepsApart → s.KeepsOffHost → ∀ depth tree out, tree.namesAreStrings = true →
      s.sanitize depth tree = .ok out → s.restored out = tree) := by
  refine ⟨?_, fun hp hh depth tree out hn ho => ?_⟩
  · rw [← Sanitizer.newName_injective_iff]
    constructor
    · intro h a b ha hb hab
      refine h [] a b ha hb ?_
      rw [Sanitizer.rename_set [] ha, Sanitizer.rename_set [] hb, hab]
    · intro h fields a b ha hb hab
      rw [Sanitizer.rename_set fields ha, Sanitizer.rename_set fields hb] at hab
      injection hab with hab
      injection hab with hab
      have hg := congrArg (Fields.get · "name") hab
      simp only [Fields.get_set, if_true] at hg
      exact h a b ha hb hg
  · rw [Sanitizer.sanitize_ok ho]
    exact Sanitizer.restored_renamed hp hh tree hn

theorem Sanitizer.sample_keepsApart : Sanitizer.sample.KeepsApart := by
  intro name _
  refine Bool.eq_false_iff.mpr fun h => ?_
  have hl : Sanitizer.sample.marker ++ name = "push" := by simpa [Sanitizer.sample] using h
  have hc := congrArg String.toList hl
  simp [Sanitizer.sample] at hc

/-- A loop that keeps an excluded name and an access to the host is recovered. -/
theorem renaming_is_injective_of_hostLoop :
    ∃ out, Sanitizer.sample.sanitize 0 hostLoop = .ok out ∧ Sanitizer.sample.restored out = hostLoop
      := by
  obtain ⟨-, h⟩ := renaming_is_injective .sample
  exact ⟨_, rfl, h Sanitizer.sample_keepsApart Sanitizer.sample_keepsOffHost 0 hostLoop _ rfl rfl⟩

end ContractMeter
