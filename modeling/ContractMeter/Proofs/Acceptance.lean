import ContractMeter.Proofs.Pipeline
import ContractMeter.Proofs.Renaming

/-!
# ContractMeter.Proofs.Acceptance

When a sanitization succeeds, as a check of the tree.

* `Sanitizer.accepts` — the tree has no more than so many levels, and each name can be looked up.
* `Sanitizer.sanitizeAt_eq_ok_iff` — then, and only then, the renamed tree comes out.
* `compile_ok_iff` — what a compilation that succeeds consists of.
-/

namespace ContractMeter
namespace Sanitizer

/-- Whether a value has no more than so many levels, where identifiers and exempt accesses have
one, and every identifier has a name that can be looked up. -/
def accepts (s : Sanitizer) : Nat → Value → Bool
  | 0, _ => false
  | levels + 1, .list items => items.all (accepts s levels)
  | levels + 1, .record fields =>
    if (Value.record fields).hasKind "Identifier" then (Fields.get fields "name").comparable
    else s.exempts fields || fields.all fun field => accepts s levels field.2
  | _ + 1, _ => true

theorem isOk_eachItem (f : Value → Except Failure Value) (items : List Value) :
    (eachItem f items).isOk = items.all fun v => (f v).isOk := by
  induction items with
  | nil => rfl
  | cons item rest ih =>
    rw [eachItem, List.all_cons, ← ih]
    cases f item with
    | error failure => rfl
    | ok item' => cases eachItem f rest <;> rfl

theorem isOk_eachField (f : Value → Except Failure Value) (fields : Fields) :
    (eachField f fields).isOk = fields.all fun field => (f field.2).isOk := by
  induction fields with
  | nil => rfl
  | cons field rest ih =>
    rw [eachField, List.all_cons, ← ih]
    cases f field.2 with
    | error failure => rfl
    | ok v => cases eachField f rest <;> rfl

theorem isOk_rename (s : Sanitizer) (fields : Fields) :
    (s.rename fields).isOk = (Fields.get fields "name").comparable := by
  simp only [rename]
  cases (Fields.get fields "name").comparable with
  | false => rfl
  | true => cases s.isExcluded (Fields.get fields "name") <;> rfl

theorem isOk_sanitizeAt (s : Sanitizer) (levels : Nat) (v : Value) :
    (s.sanitizeAt levels v).isOk = s.accepts levels v := by
  induction levels generalizing v with
  | zero => rfl
  | succ levels ih =>
    cases v with
    | list items =>
      have hi := isOk_eachItem (s.sanitizeAt levels) items
      simp only [ih] at hi
      rw [sanitizeAt, accepts, ← hi]
      cases eachItem (s.sanitizeAt levels) items <;> rfl
    | record fields =>
      have hf := isOk_eachField (s.sanitizeAt levels) fields
      simp only [ih] at hf
      simp only [sanitizeAt, Value.isText_type, accepts]
      by_cases hk : (Value.record fields).hasKind "Identifier" = true
      · rw [if_pos hk, if_pos hk, isOk_rename]
      · rw [if_neg hk, if_neg hk, ← exempts]
        by_cases he : s.exempts fields = true
        · rw [if_pos he, he]
          rfl
        · rw [if_neg he, Bool.eq_false_iff.mpr he, Bool.false_or, ← hf]
          cases eachField (s.sanitizeAt levels) fields <;> rfl
    | _ => rfl

theorem sanitizeAt_eq_ok_iff {s : Sanitizer} {levels : Nat} {v w : Value} :
    s.sanitizeAt levels v = .ok w ↔ s.accepts levels v = true ∧ w = s.renamed v := by
  have hs := s.sanitizeAt_settles levels v
  rw [← isOk_sanitizeAt]
  cases ho : s.sanitizeAt levels v with
  | error failure => simp [Except.isOk, Except.toBool]
  | ok u =>
    rw [ho] at hs
    obtain rfl : u = s.renamed v := hs
    simp [Except.isOk, Except.toBool, eq_comm]

/-! ## Other ceilings -/

mutual

/-- A ceiling decides whether renaming succeeds, and nothing else. -/
theorem renamed_withCeiling (s : Sanitizer) (limit : Int) :
    ∀ v : Value, ({ s with maxDepth := limit } : Sanitizer).renamed v = s.renamed v
  | .list items => by
    rw [renamed_list, renamed_list, renamedItems_withCeiling s limit items]
  | .record fields => by
    rw [renamed_record, renamed_record, renamedRecord, renamedRecord,
      renamedFields_withCeiling s limit fields]
    rfl
  | .null | .bool _ | .int _ | .float _ | .text _ | .broken _ | .host _ => by simp [renamed]

theorem renamedItems_withCeiling (s : Sanitizer) (limit : Int) : ∀ items : List Value,
    ({ s with maxDepth := limit } : Sanitizer).renamedItems items = s.renamedItems items
  | [] => by rw [renamedItems, renamedItems]
  | item :: rest => by
    rw [renamedItems, renamedItems, renamed_withCeiling s limit item,
      renamedItems_withCeiling s limit rest]

theorem renamedFields_withCeiling (s : Sanitizer) (limit : Int) :
    ∀ fields : List (String × Value),
      ({ s with maxDepth := limit } : Sanitizer).renamedFields fields = s.renamedFields fields
  | [] => by rw [renamedFields, renamedFields]
  | (key, v) :: rest => by
    rw [renamedFields, renamedFields, renamed_withCeiling s limit v,
      renamedFields_withCeiling s limit rest]

end

theorem accepts_withCeiling (s : Sanitizer) (limit : Int) (levels : Nat) (v : Value) :
    ({ s with maxDepth := limit } : Sanitizer).accepts levels v = s.accepts levels v := by
  induction levels generalizing v with
  | zero => rfl
  | succ levels ih =>
    cases v with
    | list items => simp only [accepts, funext ih]
    | record fields =>
      simp only [accepts, ih]
      rfl
    | _ => rfl

/-- A tree that renaming accepts with `more` levels is renamed below a ceiling so much higher. -/
theorem sanitize_withCeiling {s : Sanitizer} {depth : Int} {more : Nat} {v : Value}
    (hd : 0 < levelsLeft s.maxDepth depth)
    (h : s.accepts (levelsLeft s.maxDepth depth + more) v = true) :
    ({ s with maxDepth := s.maxDepth + more } : Sanitizer).sanitize depth v =
      .ok (s.renamed v) := by
  have hl : levelsLeft (s.maxDepth + more) depth = levelsLeft s.maxDepth depth + more := by
    unfold levelsLeft at hd ⊢
    omega
  refine sanitizeAt_eq_ok_iff.mpr ⟨?_, (renamed_withCeiling s _ v).symm⟩
  rw [accepts_withCeiling, hl]
  exact h

theorem pos_of_accepts {s : Sanitizer} {levels : Nat} {v : Value}
    (h : s.accepts levels v = true) : 0 < levels := by
  cases levels with
  | zero => cases h
  | succ levels => exact Nat.succ_pos levels

end Sanitizer

/-- A compilation succeeds if renaming accepts the tree and the walk over the renamed tree ends
well. -/
theorem compile_ok_iff {parse : Parser} {settings : Settings} {options : CompileOptions}
    {source : String} {tree : Value} {result : Compilation} (hp : parse true source = .ok tree) :
    (compile parse settings options source).outcome = .ok result ↔
      settings.sourceTooLarge? source = none ∧
      settings.sanitizer.accepts (levelsLeft settings.maxTreeDepth 0) tree = true ∧
      ((settings.instrumenter (options.strict || settings.strict)).node 0
        (settings.sanitizer.renamed tree)).Yields ⟨result.warnings, result.charges⟩
          result.tree := by
  cases hlarge : settings.sourceTooLarge? source with
  | some reason =>
    have ho : (compile parse settings options source).outcome = .error (.rejected reason) := by
      simp only [compile, hlarge]
    simp [ho]
  | none =>
    rw [compile_outcome hlarge hp]
    generalize (settings.instrumenter (options.strict || settings.strict)).node 0 = walk
    cases hs : settings.sanitizer.sanitize 0 tree with
    | error failure =>
      have ha := Sanitizer.isOk_sanitizeAt settings.sanitizer (levelsLeft settings.maxTreeDepth 0)
        tree
      have hs' : settings.sanitizer.sanitizeAt (levelsLeft settings.maxTreeDepth 0) tree =
        .error failure := hs
      rw [hs'] at ha
      rw [← ha, renameThen, hs]
      simp [Compilation.ofRun, Bind.bind, Metered.bind, Except.map, Except.isOk, Except.toBool]
    | ok renamed =>
      obtain ⟨ha, rfl⟩ := Sanitizer.sanitizeAt_eq_ok_iff.mp hs
      have ha : settings.sanitizer.accepts (levelsLeft settings.maxTreeDepth 0) tree = true := ha
      rw [renameThen_of_ok hs, ha]
      obtain ⟨⟨warnings, charges⟩, outcome⟩ := walk (settings.sanitizer.renamed tree)
      obtain ⟨tree', charges', warnings'⟩ := result
      cases outcome with
      | error failure => simp [Compilation.ofRun, Except.map, Metered.Yields]
      | ok out =>
        simp only [Compilation.ofRun, Except.map, Metered.Yields, Metered.mk.injEq,
          Ledger.mk.injEq, Except.ok.injEq, Compilation.mk.injEq, true_and]
        constructor
        · rintro ⟨rfl, rfl, rfl⟩
          exact ⟨⟨rfl, rfl⟩, rfl⟩
        · rintro ⟨⟨rfl, rfl⟩, rfl⟩
          exact ⟨rfl, rfl, rfl⟩

end ContractMeter
