import ContractMeter.Proofs.Height
import ContractMeter.Proofs.Shielding

/-!
# ContractMeter.Proofs.Composition

Sanitizations one after the other.

* `Sanitizer.marked` — the same sanitizer with another prefix.
* `Sanitizer.newName_newName`, `Sanitizer.renamed_renamed` — two prefixes one after the other are
  the second in front of the first, for a name and for a tree.
* `Sanitizer.sanitize_sanitize` — and so are two sanitizations, whether they succeed or fail.
* `sanitizations_compose` — for two and for any number of them.
-/

namespace ContractMeter

theorem TextPoint.ofString_append (a b : String) : ofString (a ++ b) = ofString a ++ ofString b := by
  simp [ofString]

namespace Sanitizer

/-- The same sanitizer with another prefix. -/
def marked (s : Sanitizer) (marker : String) : Sanitizer :=
  { s with marker }

/-- The prefix so many times in a row. -/
def markerTimes (s : Sanitizer) : Nat → String
  | 0 => ""
  | count + 1 => s.markerTimes count ++ s.marker

variable {s : Sanitizer} {q : String}

/-! ## Names -/

theorem prefixed_prefixed {name : Value} (h : name.isString = true) :
    (s.marked q).prefixed (s.prefixed name) = (s.marked (q ++ s.marker)).prefixed name := by
  cases name with
  | text t => simp [marked, prefixed, Value.display, String.append_assoc]
  | broken t =>
    have hs : s.prefixed (.broken t) = .broken ⟨TextPoint.ofString s.marker ++ t.points, _⟩ :=
      Value.ofPoints_append_broken _ t
    rw [hs]
    simp only [marked, prefixed, TextPoint.ofString_append, List.append_assoc]
  | _ => cases h

theorem newName_newName (hp : s.KeepsApart) {name : Value} (h : name.isString = true) :
    (s.marked q).newName (s.newName name) = (s.marked (q ++ s.marker)).newName name := by
  have hq : ∀ q name, (s.marked q).isExcluded name = s.isExcluded name := fun _ _ => rfl
  unfold newName
  rw [hq, hq]
  cases hx : s.isExcluded name with
  | true => rw [if_pos rfl, if_pos rfl, if_pos hx]
  | false =>
    have hnew := isExcluded_prefixed hp h hx
    rw [if_neg Bool.false_ne_true, if_neg Bool.false_ne_true, hnew, if_neg Bool.false_ne_true,
      prefixed_prefixed h]

/-! ## Trees -/

theorem renamedIdentifier_renamedIdentifier (hp : s.KeepsApart) {fields : Fields}
    (hs : (Fields.get fields "name").isString = true) :
    (s.marked q).renamedIdentifier (s.renamedIdentifier fields) =
      (s.marked (q ++ s.marker)).renamedIdentifier fields := by
  have hname := get_name_renamedIdentifier (s := s) fields
  have hnew : (Fields.get (s.renamedIdentifier fields) "name").isString = true := by
    rw [hname]
    exact isString_newName hs
  rw [renamedIdentifier_eq hnew, hname, newName_newName hp hs, renamedIdentifier_eq hs,
    Fields.set_set, renamedIdentifier_eq hs]

/-- The second renaming takes the same decision at a record as the first, since kinds and exempt
accesses stay. -/
theorem renamedRecord_renamedRecord (hh : s.KeepsOffHost) {fields : Fields}
    (h : (Value.record fields).namesAreStrings = true) :
    (s.marked q).renamedRecord (s.renamedRecord fields) =
      if (Value.record fields).hasKind "Identifier" then
        (s.marked q).renamedIdentifier (s.renamedIdentifier fields)
      else if s.exempts fields then fields
      else (s.marked q).renamedFields (s.renamedFields fields) := by
  have hk : (Value.record (s.renamedRecord fields)).hasKind "Identifier" =
      (Value.record fields).hasKind "Identifier" := by
    rw [← renamed_record, hasKind_renamed]
  have he : (s.marked q).exempts (s.renamedRecord fields) = s.exempts fields :=
    exempts_renamedRecord hh h
  rw [renamedRecord, hk, he, renamedRecord]
  by_cases hi : (Value.record fields).hasKind "Identifier" = true
  · rw [if_pos hi, if_pos hi, if_pos hi]
  · rw [if_neg hi, if_neg hi, if_neg hi]
    by_cases hx : s.exempts fields = true
    · rw [if_pos hx, if_pos hx, if_pos hx]
    · rw [if_neg hx, if_neg hx, if_neg hx]

mutual

/-- Renaming twice is renaming once, with the second prefix in front of the first: a name that got
the first prefix is excluded no more than before. -/
theorem renamed_renamed (hp : s.KeepsApart) (hh : s.KeepsOffHost) :
    ∀ v : Value, v.namesAreStrings = true →
      (s.marked q).renamed (s.renamed v) = (s.marked (q ++ s.marker)).renamed v
  | .list items, h => by
    rw [renamed_list, renamed_list, renamed_list, renamedItems_renamedItems hp hh items h]
  | .record fields, h => by
    have hname := Value.isString_of_namesAreStrings h
    have hfields : Value.everywhereFields Value.hasStringName fields = true := by
      rw [Value.namesAreStrings, Value.everywhere, Bool.and_eq_true] at h
      exact h.2
    have hx : (s.marked (q ++ s.marker)).exempts fields = s.exempts fields := rfl
    rw [renamed_record, renamed_record, renamed_record, renamedRecord_renamedRecord hh h,
      renamedRecord, hx, renamedFields_renamedFields hp hh fields hfields]
    by_cases hi : (Value.record fields).hasKind "Identifier" = true
    · rw [if_pos hi, if_pos hi, renamedIdentifier_renamedIdentifier hp (hname hi)]
    · rw [if_neg hi, if_neg hi]
  | .null, _ | .bool _, _ | .int _, _ | .float _, _ | .text _, _ | .broken _, _
  | .host _, _ => by simp [renamed]

theorem renamedItems_renamedItems (hp : s.KeepsApart) (hh : s.KeepsOffHost) :
    ∀ items : List Value, Value.everywhereItems Value.hasStringName items = true →
      (s.marked q).renamedItems (s.renamedItems items) =
        (s.marked (q ++ s.marker)).renamedItems items
  | [], _ => by rw [renamedItems, renamedItems, renamedItems]
  | item :: rest, h => by
    rw [Value.everywhereItems, Bool.and_eq_true] at h
    rw [renamedItems, renamedItems, renamedItems, renamed_renamed hp hh item h.1,
      renamedItems_renamedItems hp hh rest h.2]

theorem renamedFields_renamedFields (hp : s.KeepsApart) (hh : s.KeepsOffHost) :
    ∀ fields : List (String × Value), Value.everywhereFields Value.hasStringName fields = true →
      (s.marked q).renamedFields (s.renamedFields fields) =
        (s.marked (q ++ s.marker)).renamedFields fields
  | [], _ => by rw [renamedFields, renamedFields, renamedFields]
  | (key, v) :: rest, h => by
    rw [Value.everywhereFields, Bool.and_eq_true] at h
    rw [renamedFields, renamedFields, renamedFields, renamed_renamed hp hh v h.1,
      renamedFields_renamedFields hp hh rest h.2]

end

theorem namesAreStrings_renamed {v : Value} (h : v.namesAreStrings = true) :
    (s.renamed v).namesAreStrings = true := by
  refine everywhere_renamed (fun fields hf => ?_) v h
  have hk := s.hasKind_renamed (.record fields) "Identifier"
  rw [renamed_record] at hk
  rw [Value.hasStringName, hk]
  cases hi : (Value.record fields).hasKind "Identifier" with
  | false => rfl
  | true =>
    rw [Value.hasStringName, hi, Bool.not_true, Bool.false_or] at hf
    rw [renamedRecord, if_pos hi, get_name_renamedIdentifier]
    exact isString_newName hf

/-! ## Sanitizations -/

/-- A sanitization of a tree whose names are strings, with whatever prefix. -/
theorem sanitize_marked {v : Value} (h : v.namesAreStrings = true) (q : String) (depth : Int) :
    (s.marked q).sanitize depth v =
      if v.height s.host < levelsLeft s.maxDepth depth then .ok ((s.marked q).renamed v)
      else .error (.rejected (.tooDeep (some s.maxDepth))) :=
  sanitizeAt_of_visits (visitsStrings_of_namesAreStrings h)

theorem height_renamed (hh : s.KeepsOffHost) {v : Value} {depth : Int}
    (h : v.namesAreStrings = true) (hl : v.height s.host < levelsLeft s.maxDepth depth) :
    (s.renamed v).height s.host = v.height s.host := by
  have ho : s.sanitize depth v = .ok (s.renamed v) :=
    (sanitize_marked h s.marker depth).trans (if_pos hl)
  have ha := (sanitizeAt_eq_ok_iff.mp ho).1
  exact (renamed_keeps hh (visitsStrings_of_namesAreStrings h) ha).2

/-- Two sanitizations in a row fail as one does, and yield what it yields. -/
theorem sanitize_sanitize (hp : s.KeepsApart) (hh : s.KeepsOffHost) {v : Value}
    (h : v.namesAreStrings = true) (q : String) (depth : Int) :
    s.sanitize depth v >>= (s.marked q).sanitize depth =
      (s.marked (q ++ s.marker)).sanitize depth v := by
  have hfirst : s.sanitize depth v = _ := sanitize_marked h s.marker depth
  rw [hfirst, sanitize_marked h]
  by_cases hl : v.height s.host < levelsLeft s.maxDepth depth
  · rw [if_pos hl, if_pos hl]
    show (s.marked q).sanitize depth (s.renamed v) = _
    rw [sanitize_marked (namesAreStrings_renamed h), height_renamed hh h hl, if_pos hl,
      renamed_renamed hp hh v h]
  · rw [if_neg hl, if_neg hl]
    rfl

theorem sanitizeTimes_succ (count : Nat) (v : Value) :
    s.sanitizeTimes (count + 1) v = s.sanitize 0 v >>= s.sanitizeTimes count := by
  rw [sanitizeTimes]
  cases s.sanitize 0 v <;> rfl

/-- Any positive number of sanitizations is one with the prefix so many times. -/
theorem sanitizeTimes_eq (hp : s.KeepsApart) (hh : s.KeepsOffHost) (count : Nat) {v : Value}
    (h : v.namesAreStrings = true) :
    s.sanitizeTimes (count + 1) v =
      (s.marked (s.markerTimes (count + 1))).sanitize 0 v := by
  induction count generalizing v with
  | zero =>
    have hmarker : s.markerTimes 1 = s.marker := String.empty_append
    rw [sanitizeTimes_succ, hmarker]
    show s.sanitize 0 v >>= Except.ok = s.sanitize 0 v
    cases s.sanitize 0 v <;> rfl
  | succ count ih =>
    have hrest : s.sanitize 0 v >>= s.sanitizeTimes (count + 1) =
        s.sanitize 0 v >>= (s.marked (s.markerTimes (count + 1))).sanitize 0 := by
      cases ho : s.sanitize 0 v with
      | error failure => rfl
      | ok w =>
        obtain rfl := sanitize_ok ho
        exact ih (namesAreStrings_renamed h)
    rw [sanitizeTimes_succ, hrest, sanitize_sanitize hp hh h]
    rfl

/-- No sanitization is one with the empty prefix, but that one has a ceiling. -/
theorem sanitizeTimes_zero_iff {v : Value} (h : v.namesAreStrings = true) :
    s.sanitizeTimes 0 v = (s.marked (s.markerTimes 0)).sanitize 0 v ↔
      v.height s.host ≤ s.maxDepth := by
  have hl : v.height s.host < levelsLeft s.maxDepth 0 ↔ v.height s.host ≤ s.maxDepth := by
    unfold levelsLeft
    omega
  have hr : (s.marked (s.markerTimes 0)).renamed v = v := renamed_of_empty_marker rfl v h
  rw [sanitizeTimes, sanitize_marked h, hr, ← hl]
  by_cases hv : v.height s.host < levelsLeft s.maxDepth 0
  · simp [hv]
  · simp [hv]

end Sanitizer

/-- **Sanitizations compose by putting the prefixes one after the other.** If the prefix makes no
name an excluded one or the host's, a second sanitization with whatever prefix makes of a tree, at
any depth, what one with both prefixes makes of it, and fails as that one does. So does any
number of sanitizations; none at all has no ceiling to fail at. -/
theorem sanitizations_compose {s : Sanitizer} {tree : Value} (hp : s.KeepsApart)
    (hh : s.KeepsOffHost) (hn : tree.namesAreStrings = true) :
    (∀ (q : String) (depth : Int), s.sanitize depth tree >>= (s.marked q).sanitize depth =
      (s.marked (q ++ s.marker)).sanitize depth tree) ∧
    ∀ count, s.sanitizeTimes count tree = (s.marked (s.markerTimes count)).sanitize 0 tree ↔
      count ≠ 0 ∨ tree.height s.host ≤ s.maxDepth := by
  refine ⟨Sanitizer.sanitize_sanitize hp hh hn, fun count => ?_⟩
  cases count with
  | zero =>
    rw [Sanitizer.sanitizeTimes_zero_iff hn]
    simp
  | succ count =>
    have he := Sanitizer.sanitizeTimes_eq hp hh count hn
    simp [he]

theorem sanitizations_compose_of_hostLoop :
    Sanitizer.sample.sanitizeTimes 3 hostLoop =
        (Sanitizer.sample.marked "own_own_own_").sanitize 0 hostLoop ∧
      Sanitizer.sample.sanitize 2 hostLoop >>= (Sanitizer.sample.marked "late_").sanitize 2 =
        (Sanitizer.sample.marked "late_own_").sanitize 2 hostLoop := by
  obtain ⟨htwice, htimes⟩ := @sanitizations_compose .sample hostLoop Sanitizer.sample_keepsApart
    Sanitizer.sample_keepsOffHost rfl
  exact ⟨(htimes 3).mpr (.inl (by decide)), htwice "late_" 2⟩

/-- A ceiling of zero rejects a statement that nothing has sanitized, with the empty prefix too. -/
theorem unsanitized_tree_meets_no_ceiling :
    let s : Sanitizer := { Sanitizer.sample with maxDepth := 0 }
    let tree := Value.node "EmptyStatement" []
    s.KeepsApart ∧ s.KeepsOffHost ∧ tree.namesAreStrings = true ∧
      s.sanitizeTimes 0 tree ≠ (s.marked (s.markerTimes 0)).sanitize 0 tree := by
  intro s tree
  refine ⟨Sanitizer.sample_keepsApart, Sanitizer.sample_keepsOffHost, rfl, ?_⟩
  intro h
  cases h

end ContractMeter
