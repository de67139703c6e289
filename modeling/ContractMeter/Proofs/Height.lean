import ContractMeter.Proofs.Exposure

/-!
# ContractMeter.Proofs.Height

When renaming fails, as a measure of the tree.

* `Value.height` — how far the scalars of a tree lie below its root.
* `Sanitizer.Visits` — the identifiers that a walk comes to before it ends.
* `Sanitizer.sanitizeAt_of_visits` — where their names are strings, height alone decides.
* `Sanitizer.renamed_keeps` — renaming keeps the height if it keeps off the host.
* `sanitize_fails_iff_too_high` — for the sanitizer at any depth.
-/

namespace ContractMeter

open MeteringCall (isNamed)

namespace Value

mutual

/-- The levels of lists and records above the lowest part of a tree. Identifiers and plain
accesses to the host have none, whatever they hold. -/
def height (host : String) : Value → Nat
  | .list items => heightItems host items
  | .record fields => if (record fields).isSealed host then 0 else heightFields host fields
  | _ => 0

def heightItems (host : String) : List Value → Nat
  | [] => 0
  | item :: rest => max (height host item + 1) (heightItems host rest)

def heightFields (host : String) : List (String × Value) → Nat
  | [] => 0
  | (_, v) :: rest => max (height host v + 1) (heightFields host rest)

end

section Height

variable {host : String} {items : List Value} {fields : Fields} {n : Nat}

theorem heightItems_lt :
    heightItems host items < n + 1 ↔ ∀ item ∈ items, item.height host < n := by
  induction items with
  | nil => simp [heightItems]
  | cons item rest ih =>
    rw [heightItems, List.forall_mem_cons, ← ih, Nat.max_lt]
    omega

theorem heightFields_lt :
    heightFields host fields < n + 1 ↔ ∀ field ∈ fields, field.2.height host < n := by
  induction fields with
  | nil => simp [heightFields]
  | cons field rest ih =>
    rw [heightFields, List.forall_mem_cons, ← ih, Nat.max_lt]
    omega

theorem heightItems_map {f : Value → Value}
    (h : ∀ item ∈ items, (f item).height host = item.height host) :
    heightItems host (items.map f) = heightItems host items := by
  induction items with
  | nil => rfl
  | cons item rest ih =>
    rw [List.forall_mem_cons] at h
    rw [List.map_cons, heightItems, heightItems, h.1, ih h.2]

theorem heightFields_map {f : Value → Value}
    (h : ∀ field ∈ fields, (f field.2).height host = field.2.height host) :
    heightFields host (fields.map fun field => (field.1, f field.2)) = heightFields host fields := by
  induction fields with
  | nil => rfl
  | cons field rest ih =>
    rw [List.forall_mem_cons] at h
    rw [List.map_cons, heightFields, heightFields, h.1, ih h.2]

end Height

end Value

namespace Sanitizer

variable {s : Sanitizer} {levels : Nat} {v : Value}

theorem height_record (fields : Fields) : (Value.record fields).height s.host =
    if s.enters fields then Value.heightFields s.host fields else 0 := by
  rw [Value.height, enters_eq_not_isSealed]
  cases (Value.record fields).isSealed s.host <;> rfl

/-- The identifiers that a walk with so many levels left comes to. It enters a list or a record
part by part, as long as the parts before succeed, and it enters nothing that is sealed. -/
inductive Visits (s : Sanitizer) : Nat → Value → Fields → Prop where
  | identifier {levels : Nat} {fields : Fields}
      (hi : (Value.record fields).hasKind "Identifier" = true) :
      Visits s (levels + 1) (.record fields) fields
  | item {levels : Nat} {before after : List Value} {item : Value} {fields : Fields}
      (hb : ∀ v ∈ before, (s.sanitizeAt levels v).isOk = true) (h : Visits s levels item fields) :
      Visits s (levels + 1) (.list (before ++ item :: after)) fields
  | field {levels : Nat} {before after : Fields} {key : String} {v : Value} {fields : Fields}
      (he : s.enters (before ++ (key, v) :: after) = true)
      (hb : ∀ field ∈ before, (s.sanitizeAt levels field.2).isOk = true)
      (h : Visits s levels v fields) :
      Visits s (levels + 1) (.record (before ++ (key, v) :: after)) fields

/-- Whether the names of all identifiers that a walk comes to are strings. -/
def VisitsStrings (s : Sanitizer) (levels : Nat) (v : Value) : Prop :=
  ∀ fields, s.Visits levels v fields → (Fields.get fields "name").isString = true

section VisitsStrings

theorem VisitsStrings.name {fields : Fields}
    (h : s.VisitsStrings (levels + 1) (.record fields))
    (hi : (Value.record fields).hasKind "Identifier" = true) :
    (Fields.get fields "name").isString = true :=
  h fields (.identifier hi)

theorem VisitsStrings.item {before after : List Value} {item : Value}
    (h : s.VisitsStrings (levels + 1) (.list (before ++ item :: after)))
    (hb : ∀ v ∈ before, (s.sanitizeAt levels v).isOk = true) : s.VisitsStrings levels item :=
  fun fields hv => h fields (.item hb hv)

theorem VisitsStrings.field {before after : Fields} {key : String}
    (h : s.VisitsStrings (levels + 1) (.record (before ++ (key, v) :: after)))
    (he : s.enters (before ++ (key, v) :: after) = true)
    (hb : ∀ field ∈ before, (s.sanitizeAt levels field.2).isOk = true) :
    s.VisitsStrings levels v :=
  fun fields hv => h fields (.field he hb hv)

theorem visitsStrings_of_namesAreStrings (h : v.namesAreStrings = true) :
    s.VisitsStrings levels v := by
  intro fields hv
  induction hv with
  | identifier hi => exact Value.isString_of_namesAreStrings h hi
  | item _ _ ih => exact ih (Value.everywhere_mem h (List.mem_append_right _ List.mem_cons_self))
  | field _ _ _ ih =>
    exact ih (Value.everywhere_value h (List.mem_append_right _ List.mem_cons_self))

/-- In a tree that the walk gets through, it comes to every item of a list. -/
theorem VisitsStrings.mem {items : List Value} {item : Value}
    (h : s.VisitsStrings (levels + 1) (.list items)) (hm : item ∈ items)
    (ha : ∀ v ∈ items, s.accepts levels v = true) : s.VisitsStrings levels item := by
  obtain ⟨before, after, rfl⟩ := List.append_of_mem hm
  refine h.item fun v hv => ?_
  rw [isOk_sanitizeAt]
  exact ha v (List.mem_append_left _ hv)

/-- And to every field of a record that it enters. -/
theorem VisitsStrings.mem_fields {fields : Fields} {field : String × Value}
    (h : s.VisitsStrings (levels + 1) (.record fields)) (he : s.enters fields = true)
    (hm : field ∈ fields) (ha : ∀ field ∈ fields, s.accepts levels field.2 = true) :
    s.VisitsStrings levels field.2 := by
  obtain ⟨before, after, rfl⟩ := List.append_of_mem hm
  refine h.field he fun other ho => ?_
  rw [isOk_sanitizeAt]
  exact ha other (List.mem_append_left _ ho)

theorem VisitsStrings.isString_name (h : s.VisitsStrings levels v) (ha : s.accepts levels v = true)
    (hi : v.hasKind "Identifier" = true) : (v.field "name").isString = true := by
  cases levels with
  | zero => cases ha
  | succ levels =>
    cases v with
    | record fields => exact h.name hi
    | _ => cases hi

/-- The object of a member access that the walk enters and gets through has a string as its name
if it is an identifier. -/
theorem VisitsStrings.object_name {fields : Fields}
    (h : s.VisitsStrings (levels + 1) (.record fields)) (he : s.enters fields = true)
    (ha : ∀ field ∈ fields, s.accepts levels field.2 = true)
    (hi : (Fields.get fields "object").hasKind "Identifier" = true) :
    ((Fields.get fields "object").field "name").isString = true := by
  cases ho : Fields.get? fields "object" with
  | none =>
    rw [Fields.get, ho] at hi
    cases hi
  | some object =>
    have hm : ("object", object) ∈ fields := Fields.mem_of_get? ho
    rw [Fields.get_of_get? ho] at hi ⊢
    exact (h.mem_fields he hm ha).isString_name (ha _ hm) hi

end VisitsStrings

/-! ## The way down -/

section Walk

variable {f : Value → Except Failure Value} {g : Value → Value} {fits : Value → Bool}
  {failure : Failure}

theorem eachItem_eq {items : List Value}
    (h : ∀ before item after, items = before ++ item :: after →
      (∀ v ∈ before, (f v).isOk = true) →
        f item = if fits item then .ok (g item) else .error failure) :
    eachItem f items = if items.all fits then .ok (items.map g) else .error failure := by
  induction items with
  | nil => rfl
  | cons item rest ih =>
    have hi := h [] item rest rfl fun _ hm => nomatch hm
    rw [eachItem, hi, List.all_cons, List.map_cons]
    cases hf : fits item with
    | false => rfl
    | true =>
      have hok : (f item).isOk = true := by
        rw [hi, hf]
        rfl
      have hr := ih fun before v after he hb => h (item :: before) v after (by rw [he]; rfl)
        (List.forall_mem_cons.mpr ⟨hok, hb⟩)
      rw [if_pos rfl, hr, Bool.true_and]
      cases rest.all fits <;> rfl

theorem eachField_eq {fields : Fields}
    (h : ∀ before key v after, fields = before ++ (key, v) :: after →
      (∀ field ∈ before, (f field.2).isOk = true) →
        f v = if fits v then .ok (g v) else .error failure) :
    eachField f fields = if fields.all (fun field => fits field.2) then
      .ok (fields.map fun field => (field.1, g field.2)) else .error failure := by
  induction fields with
  | nil => rfl
  | cons field rest ih =>
    have hi := h [] field.1 field.2 rest rfl fun _ hm => nomatch hm
    rw [eachField, hi, List.all_cons, List.map_cons]
    cases hf : fits field.2 with
    | false => rfl
    | true =>
      have hok : (f field.2).isOk = true := by
        rw [hi, hf]
        rfl
      have hr := ih fun before key v after he hb => h (field :: before) key v after
        (by rw [he]; rfl) (List.forall_mem_cons.mpr ⟨hok, hb⟩)
      rw [if_pos rfl, hr, Bool.true_and]
      cases rest.all (fun field => fits field.2) <;> rfl

end Walk

theorem sanitizeAt_of_enters {fields : Fields} (h : s.enters fields = true) :
    s.sanitizeAt (levels + 1) (.record fields) =
      match eachField (s.sanitizeAt levels) fields with
      | .error failure => .error failure
      | .ok fields => .ok (.record fields) := by
  obtain ⟨hi, he⟩ := enters_iff.mp h
  simp only [sanitizeAt, Value.isText_type]
  cases hf : eachField (s.sanitizeAt levels) fields <;>
    rw [hi, if_neg Bool.false_ne_true, ← exempts, he, if_neg Bool.false_ne_true]

theorem sanitizeAt_of_not_enters {fields : Fields} (h : s.enters fields = false)
    (hs : (Value.record fields).hasKind "Identifier" = true →
      (Fields.get fields "name").isString = true) :
    s.sanitizeAt (levels + 1) (.record fields) = .ok (s.renamed (.record fields)) := by
  rw [renamed_record, renamedRecord]
  simp only [sanitizeAt, Value.isText_type]
  by_cases hi : (Value.record fields).hasKind "Identifier" = true
  · rw [if_pos hi, if_pos hi, rename_eq (hs hi), renamedIdentifier_eq (hs hi)]
  · have he : s.exempts fields = true := by
      rw [enters, Bool.eq_false_iff.mpr hi] at h
      simpa using h
    rw [if_neg hi, if_neg hi, ← exempts, if_pos he, if_pos he]

/-- Where the names that a walk comes to are strings, it fails at its ceiling, and that exactly
when the tree is not lower than the levels left. -/
theorem sanitizeAt_of_visits (h : s.VisitsStrings levels v) :
    s.sanitizeAt levels v = if v.height s.host < levels then .ok (s.renamed v)
      else .error (.rejected (.tooDeep (some s.maxDepth))) := by
  induction levels generalizing v with
  | zero => rw [sanitizeAt, if_neg (Nat.not_lt_zero _)]
  | succ levels ih =>
    have hstep : ∀ v, s.VisitsStrings levels v → s.sanitizeAt levels v =
        if decide (v.height s.host < levels) then .ok (s.renamed v)
        else .error (.rejected (.tooDeep (some s.maxDepth))) := by
      intro v hv
      rw [ih hv]
      simp only [decide_eq_true_eq]
    cases v with
    | list items =>
      have hi : eachItem (s.sanitizeAt levels) items = _ := eachItem_eq
        fun before item after he hb => hstep item (VisitsStrings.item (he ▸ h) hb)
      rw [sanitizeAt, hi, renamed_list, renamedItems_eq_map, Value.height]
      simp only [List.all_eq_true, decide_eq_true_eq, ← Value.heightItems_lt]
      by_cases hl : Value.heightItems s.host items < levels + 1
      · rw [if_pos hl, if_pos hl]
      · rw [if_neg hl, if_neg hl]
    | record fields =>
      rw [height_record]
      cases he : s.enters fields with
      | false =>
        rw [sanitizeAt_of_not_enters he h.name, if_neg Bool.false_ne_true,
          if_pos (Nat.succ_pos levels)]
      | true =>
        have hf : eachField (s.sanitizeAt levels) fields = _ := eachField_eq
          fun before key v after hs hb => hstep v (VisitsStrings.field (hs ▸ h) (hs ▸ he) hb)
        rw [sanitizeAt_of_enters he, hf, renamed_record, renamedRecord_of_enters he,
          renamedFields_eq_map]
        simp only [List.all_eq_true, decide_eq_true_eq, ← Value.heightFields_lt, if_true]
        by_cases hl : Value.heightFields s.host fields < levels + 1
        · rw [if_pos hl, if_pos hl]
        · rw [if_neg hl, if_neg hl]
    | _ => rw [sanitizeAt, Value.height, if_pos (Nat.succ_pos levels), renamed] <;> simp

/-! ## Once more -/

/-- Renaming that keeps off the host enters the same records once more. -/
theorem enters_renamedRecord (hp : s.KeepsOffHost) {fields : Fields}
    (hs : s.enters fields = true → (Fields.get fields "object").hasKind "Identifier" = true →
      ((Fields.get fields "object").field "name").isString = true) :
    s.enters (s.renamedRecord fields) = s.enters fields := by
  have hi := s.hasKind_renamed (.record fields) "Identifier"
  rw [renamed_record] at hi
  rw [enters, enters, hi, exempts_renamedRecord_of_string hp hs]

theorem accepts_of_enters {fields : Fields} (h : s.enters fields = true) :
    s.accepts (levels + 1) (.record fields) = fields.all fun field => s.accepts levels field.2 := by
  obtain ⟨hi, he⟩ := enters_iff.mp h
  rw [accepts, hi, if_neg Bool.false_ne_true, he, Bool.false_or]

theorem accepts_of_not_enters {fields : Fields} (h : s.enters fields = false)
    (hs : (Value.record fields).hasKind "Identifier" = true →
      (Fields.get fields "name").isString = true) :
    s.accepts (levels + 1) (.record fields) = true := by
  rw [← isOk_sanitizeAt, sanitizeAt_of_not_enters h hs]
  rfl

/-- If renaming keeps off the host, the renamed tree is accepted again and no higher or lower. -/
theorem renamed_keeps (hp : s.KeepsOffHost) (hn : s.VisitsStrings levels v)
    (ha : s.accepts levels v = true) :
    s.accepts levels (s.renamed v) = true ∧ (s.renamed v).height s.host = v.height s.host := by
  induction levels generalizing v with
  | zero => cases ha
  | succ levels ih =>
    cases v with
    | list items =>
      rw [accepts, List.all_eq_true] at ha
      have hpart : ∀ item ∈ items, s.accepts levels (s.renamed item) = true ∧
          (s.renamed item).height s.host = item.height s.host :=
        fun item hm => ih (hn.mem hm ha) (ha item hm)
      rw [renamed_list, renamedItems_eq_map, accepts, List.all_map, List.all_eq_true, Value.height,
        Value.height]
      exact ⟨fun item hm => (hpart item hm).1, Value.heightItems_map fun item hm => (hpart item hm).2⟩
    | record fields =>
      rw [renamed_record, height_record, height_record]
      cases he : s.enters fields with
      | true =>
        rw [accepts_of_enters he, List.all_eq_true] at ha
        have hpart : ∀ field ∈ fields, s.accepts levels (s.renamed field.2) = true ∧
            (s.renamed field.2).height s.host = field.2.height s.host :=
          fun field hm => ih (hn.mem_fields he hm ha) (ha field hm)
        have hr : s.enters (s.renamedRecord fields) = true :=
          (enters_renamedRecord hp fun _ => hn.object_name he ha).trans he
        rw [accepts_of_enters hr, hr, renamedRecord_of_enters he, renamedFields_eq_map,
          List.all_map, List.all_eq_true, if_pos rfl, if_pos rfl]
        exact ⟨fun field hm => (hpart field hm).1,
          Value.heightFields_map fun field hm => (hpart field hm).2⟩
      | false =>
        have hr : s.enters (s.renamedRecord fields) = false :=
          (enters_renamedRecord hp fun h => absurd (he.symm.trans h) Bool.false_ne_true).trans he
        rw [hr]
        refine ⟨accepts_of_not_enters hr fun hi => ?_, rfl⟩
        rw [← renamed_record, hasKind_renamed] at hi
        rw [renamedRecord, if_pos hi, get_name_renamedIdentifier]
        exact isString_newName (hn.name hi)
    | _ => simp [renamed, accepts]

end Sanitizer

/-- **Height decides whether a sanitization fails.** Where the names of the identifiers it comes to
are strings, it fails exactly on the trees whose height exceeds the ceiling, counted from the depth
they stand at, and it fails with that ceiling. If the prefix makes no name the host's, the tree
that comes out has the same height and is accepted again. -/
theorem sanitize_fails_iff_too_high {s : Sanitizer} {depth : Int} {tree : Value}
    (hn : s.VisitsStrings (levelsLeft s.maxDepth depth) tree) :
    ((∃ failure, s.sanitize depth tree = .error failure) ↔
      s.maxDepth < depth + tree.height s.host) ∧
    (∀ failure, s.sanitize depth tree = .error failure →
      failure = .rejected (.tooDeep (some s.maxDepth))) ∧
    (s.KeepsOffHost → ∀ out, s.sanitize depth tree = .ok out →
      out.height s.host = tree.height s.host ∧ ∃ again, s.sanitize depth out = .ok again) := by
  have hs : s.sanitize depth tree = _ := Sanitizer.sanitizeAt_of_visits hn
  have hl : tree.height s.host < levelsLeft s.maxDepth depth ↔
      depth + tree.height s.host ≤ s.maxDepth := by
    unfold levelsLeft
    omega
  refine ⟨?_, fun failure ho => ?_, fun hp out ho => ?_⟩
  · rw [← Int.not_le, ← hl, hs]
    by_cases h : tree.height s.host < levelsLeft s.maxDepth depth
    · simp [h]
    · simp [h]
  · rw [hs] at ho
    split at ho
    · cases ho
    · cases ho
      rfl
  · obtain ⟨ha, rfl⟩ := Sanitizer.sanitizeAt_eq_ok_iff.mp ho
    obtain ⟨hagain, hheight⟩ := Sanitizer.renamed_keeps hp hn ha
    exact ⟨hheight, _, Sanitizer.sanitizeAt_eq_ok_iff.mpr ⟨hagain, rfl⟩⟩

/-- Lists count down to what they hold, and an empty one holds nothing. -/
example : (Value.list []).height "Host" = 0 ∧ (Value.list [.list [.null]]).height "Host" = 2 := by
  decide

/-- The accesses to the host in the loop count as leaves. -/
theorem sanitize_fails_iff_too_high_of_hostLoop :
    hostLoop.height "Host" = 4 ∧
      (∃ failure, Sanitizer.sample.sanitize 17 hostLoop = .error failure) ∧
      ∃ out again, Sanitizer.sample.sanitize 16 hostLoop = .ok out ∧
        Sanitizer.sample.sanitize 16 out = .ok again := by
  have hn : ∀ levels, Sanitizer.sample.VisitsStrings levels hostLoop := fun _ =>
    Sanitizer.visitsStrings_of_namesAreStrings rfl
  have hfails := (@sanitize_fails_iff_too_high .sample 17 hostLoop (hn _)).1
  have hagain := (@sanitize_fails_iff_too_high .sample 16 hostLoop (hn _)).2.2
  obtain ⟨-, again, h⟩ := hagain Sanitizer.sample_keepsOffHost _ rfl
  exact ⟨rfl, hfails.mpr (by decide), _, again, rfl, h⟩

end ContractMeter
