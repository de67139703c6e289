import ContractMeter.Sanitizer
import ContractMeter.Proofs.Shape

/-!
# ContractMeter.Proofs.Renaming

Renaming as a function of the tree alone, without ceilings and failures.

* `Sanitizer.renamed` — the renamed tree.
* `Sanitizer.sanitize_ok` — what a sanitization yields is the renamed tree.
* `Sanitizer.sanitize_of_names` — where names are strings, only a ceiling makes it fail.
* `Sanitizer.get?_renamedRecord`, `Sanitizer.renamedFields_set` — reading and writing renamed
  records.
* `Sanitizer.everywhere_renamed` — checks of a whole tree that renaming keeps.
-/

namespace ContractMeter

open Instrumenter (block loopBody)

namespace Value

/-- Whether a value is a string, of characters or with halves of surrogate pairs. -/
def isString : Value → Bool
  | .text _ => true
  | .broken _ => true
  | _ => false

theorem everywhere_of_isString {check : Fields → Bool} {v : Value} (h : v.isString = true) :
    v.everywhere check = true := by
  cases v with
  | text _ | broken _ => rfl
  | _ => cases h

/-- Whether a record has a string as its name if it is an identifier. -/
def hasStringName (fields : Fields) : Bool :=
  !(record fields).hasKind "Identifier" || (Fields.get fields "name").isString

/-- Whether every identifier of a tree has a string as its name. -/
def namesAreStrings (v : Value) : Bool :=
  v.everywhere hasStringName

theorem isText_type (fields : Fields) (name : String) :
    (Fields.get fields "type").isText name = (record fields).hasKind name := by
  rw [Bool.eq_iff_iff, hasKind_iff, field?_record, Fields.get]
  cases Fields.get? fields "type" with
  | none => simp [isText]
  | some t => cases t <;> simp [isText]

theorem chars?_append_of_none {points : List TextPoint} (front : List TextPoint)
    (h : TextPoint.chars? points = none) : TextPoint.chars? (front ++ points) = none := by
  induction front with
  | nil => exact h
  | cons point rest ih => cases point <;> simp [TextPoint.chars?, ih]

theorem ofPoints_append_broken (front : List TextPoint) (t : BrokenText) :
    ofPoints (front ++ t.points) =
      .broken ⟨front ++ t.points, chars?_append_of_none front t.broken⟩ := by
  unfold ofPoints
  split
  · rename_i h
    rw [chars?_append_of_none front t.broken] at h
    cases h
  · rfl

theorem isString_ofPoints (points : List TextPoint) : (ofPoints points).isString = true := by
  unfold ofPoints
  split <;> rfl

end Value

namespace Sanitizer

theorem isString_prefixed (s : Sanitizer) (name : Value) : (s.prefixed name).isString = true := by
  cases name with
  | broken t => exact Value.isString_ofPoints _
  | _ => rfl

/-- Whether a record is a plain access to the host, which is left as it is. -/
def exempts (s : Sanitizer) (fields : Fields) : Bool :=
  (Value.record fields).hasKind "MemberExpression" && s.isHostAccess (.record fields)

/-- Whether the parts of a record are renamed. -/
def enters (s : Sanitizer) (fields : Fields) : Bool :=
  !(Value.record fields).hasKind "Identifier" && !s.exempts fields

/-- The fields of an identifier under its new name. -/
def renamedIdentifier (s : Sanitizer) (fields : Fields) : Fields :=
  if s.isExcluded (Fields.get fields "name") then fields
  else Fields.set fields "name" (s.prefixed (Fields.get fields "name"))

mutual

/-- The tree with every identifier under its new name. -/
def renamed (s : Sanitizer) : Value → Value
  | .list items => .list (renamedItems s items)
  | .record fields =>
    if (Value.record fields).hasKind "Identifier" then .record (s.renamedIdentifier fields)
    else if s.exempts fields then .record fields
    else .record (renamedFields s fields)
  | v => v

def renamedItems (s : Sanitizer) : List Value → List Value
  | [] => []
  | item :: rest => renamed s item :: renamedItems s rest

def renamedFields (s : Sanitizer) : List (String × Value) → List (String × Value)
  | [] => []
  | (key, v) :: rest => (key, renamed s v) :: renamedFields s rest

end

/-- The fields of a record after renaming. -/
def renamedRecord (s : Sanitizer) (fields : Fields) : Fields :=
  if (Value.record fields).hasKind "Identifier" then s.renamedIdentifier fields
  else if s.exempts fields then fields
  else s.renamedFields fields

/-- A sanitizer for the host of `Instrumenter.sample`. -/
def sample : Sanitizer where
  excluded := ["push"]
  marker := "own_"
  host := "Host"
  maxDepth := 20

/-- What renaming does to the parts of a record other than a name. -/
def within (s : Sanitizer) (fields : Fields) (v : Value) : Value :=
  if s.enters fields then s.renamed v else v

section Equations

variable (s : Sanitizer)

@[simp]
theorem renamed_list (items : List Value) :
    s.renamed (.list items) = .list (s.renamedItems items) := by
  rw [renamed]

@[simp]
theorem renamed_record (fields : Fields) :
    s.renamed (.record fields) = .record (s.renamedRecord fields) := by
  rw [renamed, renamedRecord]
  split
  · rfl
  · split <;> rfl

@[simp]
theorem renamed_null : s.renamed .null = .null := by
  simp [renamed]

theorem renamed_of_isString {v : Value} (h : v.isString = true) : s.renamed v = v := by
  cases v with
  | text _ | broken _ => simp [renamed]
  | _ => cases h

theorem renamedItems_eq_map (items : List Value) :
    s.renamedItems items = items.map s.renamed := by
  induction items with
  | nil => rw [renamedItems, List.map_nil]
  | cons item rest ih => rw [renamedItems, List.map_cons, ih]

theorem renamedFields_eq_map (fields : Fields) :
    s.renamedFields fields = fields.map fun field => (field.1, s.renamed field.2) := by
  induction fields with
  | nil => rw [renamedFields, List.map_nil]
  | cons field rest ih => rw [renamedFields, List.map_cons, ih]

theorem renamed_eq_null_iff {v : Value} : s.renamed v = .null ↔ v = .null := by
  cases v with
  | list _ | record _ => simp
  | _ => simp [renamed]

theorem renamed_eq_text_iff {v : Value} {t : String} : s.renamed v = .text t ↔ v = .text t := by
  cases v with
  | list _ | record _ => simp
  | _ => simp [renamed]

end Equations

/-! ## Sanitization -/

section Sanitize

variable {s : Sanitizer}

/-- An outcome is what is expected or a failure, which only a ceiling causes where names are
strings. -/
def Settles {α : Type} (s : Sanitizer) (outcome : Except Failure α) (expected : α)
    (named : Prop) : Prop :=
  match outcome with
  | .ok a => a = expected
  | .error failure => named → failure = .rejected (.tooDeep (some s.maxDepth))

theorem eachItem_settles {f : Value → Except Failure Value}
    (hf : ∀ v, s.Settles (f v) (s.renamed v) (v.namesAreStrings = true)) (items : List Value) :
    s.Settles (eachItem f items) (s.renamedItems items)
      ((Value.list items).namesAreStrings = true) := by
  induction items with
  | nil => exact rfl
  | cons item rest ih =>
    have hv := hf item
    rw [eachItem, renamedItems, Value.namesAreStrings, Value.everywhere_cons, Bool.and_eq_true]
    cases hi : f item with
    | error failure =>
      rw [hi] at hv
      exact fun h => hv h.1
    | ok item' =>
      rw [hi] at hv
      cases hr : eachItem f rest with
      | error failure =>
        rw [hr] at ih
        exact fun h => ih h.2
      | ok rest' =>
        rw [hr] at ih
        exact congr (congrArg _ hv) ih

theorem eachField_settles {f : Value → Except Failure Value}
    (hf : ∀ v, s.Settles (f v) (s.renamed v) (v.namesAreStrings = true)) (fields : Fields) :
    s.Settles (eachField f fields) (s.renamedFields fields)
      (Value.everywhereFields Value.hasStringName fields = true) := by
  induction fields with
  | nil => exact rfl
  | cons field rest ih =>
    have hv := hf field.2
    rw [eachField, renamedFields, Value.everywhereFields, Bool.and_eq_true]
    cases hi : f field.2 with
    | error failure =>
      rw [hi] at hv
      exact fun h => hv h.1
    | ok v =>
      rw [hi] at hv
      cases hr : eachField f rest with
      | error failure =>
        rw [hr] at ih
        exact fun h => ih h.2
      | ok rest' =>
        rw [hr] at ih
        exact congr (congrArg (fun w => List.cons (field.1, w)) hv) ih

theorem rename_settles (fields : Fields) :
    s.Settles (s.rename fields) (.record (s.renamedIdentifier fields))
      ((Fields.get fields "name").isString = true) := by
  unfold rename renamedIdentifier
  dsimp only
  by_cases hc : (Fields.get fields "name").comparable = true
  · rw [hc]
    by_cases he : s.isExcluded (Fields.get fields "name") = true <;> simp [Settles, he]
  · rw [Bool.not_eq_true] at hc
    rw [hc]
    intro hs
    cases hn : Fields.get fields "name" with
    | text _ | broken _ =>
      rw [hn] at hc
      cases hc
    | _ =>
      rw [hn] at hs
      cases hs

theorem sanitizeAt_settles (levels : Nat) (v : Value) :
    s.Settles (s.sanitizeAt levels v) (s.renamed v) (v.namesAreStrings = true) := by
  induction levels generalizing v with
  | zero => exact fun _ => rfl
  | succ levels ih =>
    cases v with
    | list items =>
      have h := eachItem_settles ih items
      rw [sanitizeAt, renamed_list]
      cases hi : eachItem (s.sanitizeAt levels) items <;> rw [hi] at h
      · exact h
      · exact congrArg _ h
    | record fields =>
      rw [renamed_record, renamedRecord, Value.namesAreStrings, Value.everywhere, Bool.and_eq_true]
      simp only [sanitizeAt, Value.isText_type]
      by_cases hk : (Value.record fields).hasKind "Identifier" = true
      · rw [if_pos hk, if_pos hk]
        have h := s.rename_settles fields
        unfold Settles at h ⊢
        split <;> rename_i hr <;> rw [hr] at h
        · exact h
        · exact fun hn => h (by simpa [Value.hasStringName, hk] using hn.1)
      · rw [if_neg hk, if_neg hk]
        by_cases he : s.exempts fields = true
        · rw [if_pos he]
          unfold exempts at he
          rw [if_pos he]
          exact rfl
        · rw [if_neg he]
          unfold exempts at he
          rw [if_neg he]
          have h := eachField_settles ih fields
          cases hi : eachField (s.sanitizeAt levels) fields <;> rw [hi] at h
          · exact fun hn => h hn.2
          · exact congrArg _ h
    | _ => simp [Settles, sanitizeAt, renamed]

/-- A sanitization that succeeds yields the renamed tree. -/
theorem sanitize_ok {depth : Int} {v w : Value} (h : s.sanitize depth v = .ok w) :
    w = s.renamed v := by
  have hs := s.sanitizeAt_settles (levelsLeft s.maxDepth depth) v
  rw [sanitize] at h
  rw [h] at hs
  exact hs

/-- Where names are strings, a sanitization that no ceiling stops succeeds. -/
theorem sanitize_of_names {depth : Int} {v : Value} (hn : v.namesAreStrings = true)
    (hd : s.sanitize depth v ≠ .error (.rejected (.tooDeep (some s.maxDepth)))) :
    s.sanitize depth v = .ok (s.renamed v) := by
  have hs := s.sanitizeAt_settles (levelsLeft s.maxDepth depth) v
  rw [← sanitize] at hs
  cases ho : s.sanitize depth v with
  | ok w =>
    rw [ho] at hs
    exact congrArg _ hs
  | error failure =>
    rw [ho] at hs
    exact absurd (ho.trans (congrArg _ (hs hn))) hd

end Sanitize

/-! ## Reading and writing renamed records -/

section Fields

variable {s : Sanitizer} {fields : Fields} {key : String}

theorem get?_renamedFields (fields : Fields) (key : String) :
    Fields.get? (s.renamedFields fields) key = (Fields.get? fields key).map s.renamed := by
  induction fields with
  | nil => rw [renamedFields]; rfl
  | cons field rest ih =>
    obtain ⟨k, v⟩ := field
    rw [renamedFields, Fields.get?_cons, Fields.get?_cons, ih]
    split <;> rfl

theorem renamedFields_set (fields : Fields) (key : String) (v : Value) :
    s.renamedFields (Fields.set fields key v) =
      Fields.set (s.renamedFields fields) key (s.renamed v) := by
  induction fields with
  | nil => simp [Fields.set, renamedFields]
  | cons field rest ih =>
    obtain ⟨k, w⟩ := field
    by_cases hk : k = key
    · simp [Fields.set, renamedFields, hk]
    · simp [Fields.set, renamedFields, hk, ih]

theorem enters_iff : s.enters fields = true ↔
    (Value.record fields).hasKind "Identifier" = false ∧ s.exempts fields = false := by
  simp [enters]

theorem renamedRecord_of_enters (h : s.enters fields = true) :
    s.renamedRecord fields = s.renamedFields fields := by
  obtain ⟨hk, he⟩ := enters_iff.mp h
  simp [renamedRecord, hk, he]

theorem get?_renamedRecord (hk : key ≠ "name") :
    Fields.get? (s.renamedRecord fields) key = (Fields.get? fields key).map (s.within fields) := by
  by_cases h : s.enters fields = true
  · have hw : s.within fields = s.renamed := funext fun v => if_pos h
    rw [renamedRecord_of_enters h, get?_renamedFields, hw]
  · have hw : s.within fields = id := funext fun v => if_neg h
    rw [hw, Option.map_id, id_eq, renamedRecord]
    split
    -- in an identifier nothing but the name changes
    · rw [renamedIdentifier]
      split
      · rfl
      · exact Fields.get?_set_of_ne hk
    · rename_i hi
      rw [if_pos (by simpa [enters, hi] using h)]

theorem hasKind_renamed (v : Value) (name : String) :
    (s.renamed v).hasKind name = v.hasKind name := by
  cases v with
  | record fields =>
    rw [Bool.eq_iff_iff, Value.hasKind_iff, Value.hasKind_iff, renamed_record, Value.field?_record,
      Value.field?_record, get?_renamedRecord (by decide)]
    cases Fields.get? fields "type" with
    | none => simp
    | some t =>
      simp only [Option.map_some, Option.some.injEq, within]
      split
      · exact s.renamed_eq_text_iff
      · rfl
  | _ => simp [renamed, Value.hasKind, Value.isNode, Value.field?]

theorem renamedRecord_eq_nil_iff : s.renamedRecord fields = [] ↔ fields = [] := by
  cases fields with
  | nil => simp [renamedRecord, renamedFields, exempts, Value.hasKind, Value.isNode, Fields.get?]
  | cons field rest =>
    obtain ⟨k, v⟩ := field
    simp only [renamedRecord, renamedIdentifier, renamedFields, Fields.set, reduceCtorEq, iff_false]
    repeat' split
    all_goals simp

theorem truthy_renamed (v : Value) : (s.renamed v).truthy = v.truthy := by
  cases v with
  | list items => cases items <;> simp [Value.truthy, renamedItems]
  | record fields =>
    have h : (s.renamedRecord fields).isEmpty = fields.isEmpty := by
      rw [Bool.eq_iff_iff, List.isEmpty_iff, List.isEmpty_iff, renamedRecord_eq_nil_iff]
    rw [renamed_record, Value.truthy, Value.truthy, h]
  | _ => simp [renamed]

theorem within_of_enters (h : s.enters fields = true) : s.within fields = s.renamed :=
  funext fun _ => if_pos h

theorem get_renamedRecord (hk : key ≠ "name") :
    Fields.get (s.renamedRecord fields) key = s.within fields (Fields.get fields key) := by
  rw [Fields.get, Fields.get, get?_renamedRecord hk]
  cases Fields.get? fields key with
  | none => simp [within]
  | some v => rfl

/-- What renaming keeps is kept inside any record. -/
theorem within_congr {α : Type} {f : Value → α} {v : Value} (h : f (s.renamed v) = f v) :
    f (s.within fields v) = f v := by
  unfold within
  split
  · exact h
  · rfl

theorem enters_of_hasKind {name : String} (h : (Value.record fields).hasKind name = true)
    (hi : name ≠ "Identifier") (hm : name ≠ "MemberExpression") : s.enters fields = true := by
  simp [enters, exempts, Value.hasKind_of_ne h hi, Value.hasKind_of_ne h hm]

theorem enters_of_container (h : (Value.record fields).container ≠ .leaf) :
    s.enters fields = true := by
  refine enters_iff.mpr ⟨Bool.eq_false_iff.mpr fun hi => h ?_, Bool.eq_false_iff.mpr fun he => h ?_⟩
  · rw [Value.container_of_hasKind hi]
    rfl
  · have hm : (Value.record fields).hasKind "MemberExpression" = true := by
      rw [exempts, Bool.and_eq_true] at he
      exact he.1
    rw [Value.container_of_hasKind hm]
    rfl

theorem field_renamed {v : Value} {name : String} (h : v.hasKind name = true)
    (hi : name ≠ "Identifier") (hm : name ≠ "MemberExpression") :
    (s.renamed v).field key = s.renamed (v.field key) := by
  cases v with
  | record fields =>
    rw [renamed_record, renamedRecord_of_enters (enters_of_hasKind h hi hm), Value.field_record,
      Value.field_record, Fields.get, Fields.get, get?_renamedFields]
    cases Fields.get? fields key with
    | none => simp
    | some v => rfl
  | _ => cases h

theorem isSome_name (h : Value.hasStringName fields = true)
    (hi : (Value.record fields).hasKind "Identifier" = true) :
    (Fields.get? fields "name").isSome = true := by
  cases hg : Fields.get? fields "name" with
  | none => simp [Value.hasStringName, hi, Fields.get, hg, Value.isString] at h
  | some w => rfl

theorem exempts_set {v : Value} (hk : key ∈ statementFields) :
    s.exempts (Fields.set fields key v) = s.exempts fields := by
  unfold exempts isHostAccess
  simp only [hasKind_set_statementField hk, Value.field_record,
    get_set_statementField hk (by decide : "object" ∉ statementFields),
    get_set_statementField hk (by decide : "computed" ∉ statementFields)]

theorem within_set {v : Value} (hk : key ∈ statementFields) :
    s.within (Fields.set fields key v) = s.within fields := by
  have he : s.enters (Fields.set fields key v) = s.enters fields := by
    rw [enters, enters, hasKind_set_statementField hk, exempts_set hk]
  funext w
  rw [within, within, he]

theorem renamedRecord_set {v : Value} (hn : Value.hasStringName fields = true)
    (hk : key ∈ statementFields) :
    s.renamedRecord (Fields.set fields key v) =
      Fields.set (s.renamedRecord fields) key (s.within fields v) := by
  unfold renamedRecord
  rw [hasKind_set_statementField hk, exempts_set hk]
  by_cases hi : (Value.record fields).hasKind "Identifier" = true
  · have hw : s.within fields v = v := by simp [within, enters, hi]
    rw [if_pos hi, if_pos hi, hw, renamedIdentifier, renamedIdentifier,
      get_set_statementField hk (by decide)]
    split
    · rfl
    -- the name has a place already, so a new field stands behind it either way
    · exact Fields.set_comm _ _ (fun e => absurd (e ▸ hk) (by decide)) (isSome_name hn hi)
  · rw [if_neg hi, if_neg hi]
    by_cases he : s.exempts fields = true
    · have hw : s.within fields v = v := by simp [within, enters, he]
      rw [if_pos he, if_pos he, hw]
    · have hw : s.within fields v = s.renamed v := by simp [within, enters, hi, he]
      rw [if_neg he, if_neg he, hw, renamedFields_set]

theorem renamed_block (statements : Value) :
    s.renamed (block statements) = block (s.renamed statements) := by
  simp [block, renamed, renamedRecord, renamedFields, exempts, Value.hasKind, Value.isNode,
    Value.kind, Value.isText, Fields.get?_cons]

theorem within_list (items : List Value) :
    s.within fields (.list items) = .list (items.map (s.within fields)) := by
  unfold within
  split
  · rw [renamed_list, renamedItems_eq_map]
  · rw [List.map_id'']
    exact fun _ => rfl

theorem getD_renamedRecord (hk : key ≠ "name") :
    (Fields.get? (s.renamedRecord fields) key).getD (.list []) =
      s.within fields ((Fields.get? fields key).getD (.list [])) := by
  rw [get?_renamedRecord hk]
  cases Fields.get? fields key with
  | none => exact (within_list []).symm
  | some v => rfl

theorem items_within (v : Value) :
    (s.within fields v).items = v.items.map (s.within fields) := by
  cases v with
  | list items => rw [within_list, Value.items, Value.items]
  | record fields' =>
    unfold within
    split
    · rw [renamed_record]
      rfl
    · rfl
  | _ => simp [within, renamed, Value.items]

theorem loopBody_renamedRecord :
    loopBody (s.renamedRecord fields) = s.within fields (loopBody fields) := by
  have ht : (s.within fields (Fields.get fields "body")).truthy =
      (Fields.get fields "body").truthy := within_congr (truthy_renamed _)
  have hb : s.within fields (block (.list [])) = block (.list []) :=
    within_congr (f := id) (by simp [renamed_block, renamedItems])
  unfold loopBody
  dsimp only
  rw [get_renamedRecord (by decide), ht]
  split
  · rfl
  · exact hb.symm

theorem keys_renamedRecord (h : Value.hasStringName fields = true) :
    (s.renamedRecord fields).map (·.1) = fields.map (·.1) := by
  unfold renamedRecord
  split
  · rename_i hi
    unfold renamedIdentifier
    split
    · rfl
    · exact Fields.keys_set (isSome_name h hi)
  · split
    · rfl
    · simp [renamedFields_eq_map]

end Fields

/-! ## What a renamed tree keeps -/

section Keeps

variable {s : Sanitizer} {check : Fields → Bool}

mutual

/-- A check passes everywhere in a renamed tree if renaming a record keeps it. -/
theorem everywhere_renamed
    (hc : ∀ fields, check fields = true → check (s.renamedRecord fields) = true) :
    ∀ v : Value, v.everywhere check = true → (s.renamed v).everywhere check = true
  | .list items, h => by
    rw [renamed_list]
    exact everywhereItems_renamed hc items h
  | .record fields, h => by
    rw [Value.everywhere, Bool.and_eq_true] at h
    rw [renamed_record, Value.everywhere, Bool.and_eq_true]
    refine ⟨hc fields h.1, ?_⟩
    unfold renamedRecord
    split
    · unfold renamedIdentifier
      split
      · exact h.2
      · exact Value.everywhereFields_set h.2 (Value.everywhere_of_isString (s.isString_prefixed _))
    · split
      · exact h.2
      · exact everywhereFields_renamed hc fields h.2
  | .null, h | .bool _, h | .int _, h | .float _, h | .text _, h | .broken _, h
  | .host _, h => by simpa [renamed] using h

theorem everywhereItems_renamed
    (hc : ∀ fields, check fields = true → check (s.renamedRecord fields) = true) :
    ∀ items : List Value, Value.everywhereItems check items = true →
      Value.everywhereItems check (s.renamedItems items) = true
  | [], _ => by rw [renamedItems, Value.everywhereItems]
  | item :: rest, h => by
    rw [Value.everywhereItems, Bool.and_eq_true] at h
    rw [renamedItems, Value.everywhereItems, Bool.and_eq_true]
    exact ⟨everywhere_renamed hc item h.1, everywhereItems_renamed hc rest h.2⟩

theorem everywhereFields_renamed
    (hc : ∀ fields, check fields = true → check (s.renamedRecord fields) = true) :
    ∀ fields : List (String × Value), Value.everywhereFields check fields = true →
      Value.everywhereFields check (s.renamedFields fields) = true
  | [], _ => by rw [renamedFields, Value.everywhereFields]
  | (_, v) :: rest, h => by
    rw [Value.everywhereFields, Bool.and_eq_true] at h
    rw [renamedFields, Value.everywhereFields, Bool.and_eq_true]
    exact ⟨everywhere_renamed hc v h.1, everywhereFields_renamed hc rest h.2⟩

end

theorem container_renamed (v : Value) : (s.renamed v).container = v.container := by
  by_cases h : ∃ kind, v.hasKind kind = true
  · obtain ⟨kind, hk⟩ := h
    rw [Value.container_of_hasKind hk,
      Value.container_of_hasKind ((hasKind_renamed v kind).trans hk)]
  · simp only [not_exists, Bool.not_eq_true] at h
    rw [Value.container_of_not_hasKind h,
      Value.container_of_not_hasKind fun kind => (hasKind_renamed v kind).trans (h kind)]

theorem isListOrAbsent_renamed (field : Option Value) :
    Value.isListOrAbsent (field.map s.renamed) = Value.isListOrAbsent field := by
  cases field with
  | none => rfl
  | some v =>
    cases v with
    | list _ | record _ => simp [Value.isListOrAbsent]
    | _ => simp [Value.isListOrAbsent, renamed]

theorem isListOrAbsent_field?_renamed (v : Value) {key : String} (hk : key ≠ "name") :
    Value.isListOrAbsent ((s.renamed v).field? key) = Value.isListOrAbsent (v.field? key) := by
  cases v with
  | record fields =>
    rw [renamed_record, Value.field?_record, Value.field?_record, get?_renamedRecord hk]
    by_cases he : s.enters fields = true
    · rw [within_of_enters he, isListOrAbsent_renamed]
    · rw [show s.within fields = id from funext fun v => if_neg he, Option.map_id, id_eq]
  | _ => simp [renamed, Value.field?]

theorem holdsLists_renamedRecord (fields : Fields) :
    Value.holdsLists (s.renamedRecord fields) = Value.holdsLists fields := by
  have hc := s.container_renamed (.record fields)
  rw [renamed_record] at hc
  by_cases hi : (Value.record fields).hasKind "Identifier" = true
  · rw [Value.holdsLists, Value.holdsLists, hc, Value.container_of_hasKind hi]
    rfl
  · by_cases he : s.exempts fields = true
    · rw [renamedRecord, if_neg hi, if_pos he]
    · have hr : s.renamedRecord fields = s.renamedFields fields := by
        rw [renamedRecord, if_neg hi, if_neg he]
      rw [Value.holdsLists, Value.holdsLists, hc, hr, get?_renamedFields, get?_renamedFields,
        isListOrAbsent_renamed]
      cases Fields.get? fields "cases" with
      | none => rfl
      | some v =>
        cases v with
        | list cases =>
          simp [renamedItems_eq_map, Function.comp_def, isListOrAbsent_field?_renamed]
        | record _ => simp
        | _ => simp [renamed]

theorem listShaped_renamed {v : Value} (h : v.listShaped = true) :
    (s.renamed v).listShaped = true :=
  everywhere_renamed (fun fields hf => (holdsLists_renamedRecord fields).trans hf) v h

end Keeps

end Sanitizer

end ContractMeter
