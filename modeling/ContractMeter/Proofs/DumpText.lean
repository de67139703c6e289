import ContractMeter.Dump
import ContractMeter.Proofs.Instrumented
import ContractMeter.Proofs.JsonText

/-!
# ContractMeter.Proofs.DumpText

Dumps read back.

* `Dump.truncate_of_le`, `Dump.truncate_of_lt`, `Dump.truncate_of_neg` — how texts are cut.
* `Dump.expected` — what the text of a dump is to stand for.
* `dump_reads_back_iff` — a dump is a JSON text if and only if its tree is cut or has no number
  without a numeral, and it then stands for what it should.
-/

namespace ContractMeter
namespace Dump

section Truncate

variable {limit : Int} {text : String}

theorem truncate_of_le (h : text.length ≤ limit) : truncate limit text = text :=
  if_neg (Int.not_lt.mpr h)

theorem truncate_of_lt (hl : 0 ≤ limit) (h : limit < text.length) :
    truncate limit text = String.ofList (text.toList.take limit.toNat) ++ truncationMark := by
  rw [truncate, if_pos h, keep, if_neg (Int.not_lt.mpr hl)]

/-- A negative limit cuts as many characters from the end, and every text. -/
theorem truncate_of_neg (h : limit < 0) : truncate limit text =
    String.ofList (text.toList.take (text.length - limit.natAbs)) ++ truncationMark := by
  have hcount : (text.length + limit).toNat = text.length - limit.natAbs := by omega
  rw [truncate, if_pos (by omega), keep, if_pos h, hcount]

end Truncate

/-- Whether the tree of a dump is cut. -/
def cutsTree (limit : Int) (tree : Value) : Bool :=
  limit < (tree.json .line).length

/-- What a dump is to be read back as. -/
def expected (limit : Int) (source : String) (options : CompileOptions) (c : Compilation) : Datum :=
  .record [
    (textUnits "options", .record [
      (textUnits "strict", .bool options.strict),
      (textUnits "include_report", .bool options.includeReport)]),
    (textUnits "source_code", .text (textUnits (truncate limit source))),
    (textUnits "gamma_total", .int c.totalGamma),
    (textUnits "warnings", .list (c.warnings.map fun warning => .text (textUnits warning))),
    (textUnits "ast",
      if cutsTree limit c.tree then .text (textUnits (truncate limit (c.tree.json .line)))
      else c.tree.datum)]

section Value

variable {limit : Int} {source text : String} {options : CompileOptions} {c : Compilation}

theorem treeValue_eq (limit : Int) (tree : Value) : treeValue limit tree =
    if cutsTree limit tree then .text (truncate limit (tree.json .line)) else tree := by
  unfold treeValue cutsTree
  dsimp only
  by_cases h : limit < (tree.json .line).length
  · rw [if_neg (Int.not_le.mpr h), if_pos (decide_eq_true h)]
  · rw [if_pos (Int.not_lt.mp h), if_neg (by simpa using h)]

theorem datumItems_texts (texts : List String) :
    Value.datumItems (texts.map .text) = texts.map fun text => .text (textUnits text) := by
  induction texts with
  | nil => rfl
  | cons text rest ih =>
    rw [List.map_cons, Value.datumItems, ih]
    rfl

theorem onlyFiniteItems_texts (texts : List String) :
    Value.onlyFiniteItems (texts.map .text) = true := by
  induction texts with
  | nil => rfl
  | cons text rest ih =>
    rw [List.map_cons, Value.onlyFiniteItems, ih]
    rfl

theorem datum_value : (value limit source options c).datum = expected limit source options c := by
  have htree : (treeValue limit c.tree).datum = if cutsTree limit c.tree then
      .text (textUnits (truncate limit (c.tree.json .line))) else c.tree.datum := by
    rw [treeValue_eq]
    cases cutsTree limit c.tree <;> rfl
  rw [expected, ← htree, ← datumItems_texts]
  rfl

theorem onlyFinite_value : (value limit source options c).onlyFinite =
    (cutsTree limit c.tree || c.tree.onlyFinite) := by
  have htree : (treeValue limit c.tree).onlyFinite =
      (cutsTree limit c.tree || c.tree.onlyFinite) := by
    rw [treeValue_eq]
    cases cutsTree limit c.tree <;> rfl
  have hwarnings : c.warningsValue.onlyFinite = true := onlyFiniteItems_texts c.warnings
  rw [← htree]
  simp only [value, optionsValue, Value.onlyFinite, Value.onlyFiniteFields, hwarnings,
    Bool.true_and, Bool.and_true]

/-- Whatever is written is the text of the record. -/
theorem text_of_write {directory : Directory}
    (h : write directory limit source options c = .ok (some text)) :
    text = (value limit source options c).json .pretty := by
  have hcontent : content limit source options c = .ok text := by
    unfold write at h
    split at h
    · cases h
    · split at h
      · cases h
      · cases h
        assumption
    · split at h <;> cases h
  unfold content at hcontent
  dsimp only at hcontent
  split at hcontent
  · cases hcontent
    rfl
  · cases hcontent

theorem readText?_of_write {directory : Directory}
    (h : write directory limit source options c = .ok (some text)) :
    Json.readText? text = if cutsTree limit c.tree || c.tree.onlyFinite then
      some (expected limit source options c) else none := by
  rw [text_of_write h, Json.readText?_json, onlyFinite_value, datum_value]

end Value

end Dump

/-- **When a dump is a JSON text.** A dump that is written reads back if and only if its tree is cut
or has no number that is infinite or none at all. What it reads back as is then settled: the
options, the source, the total and the warnings of the compilation, and its tree, in which host
objects are the texts they display. A source or a tree on one line that is longer than the limit
stands there as its first characters and the mark; a negative limit counts from the end. -/
theorem dump_reads_back_iff {directory : Dump.Directory} {limit : Int} {source : String}
    {options : CompileOptions} {c : Compilation} {text : String}
    (h : Dump.write directory limit source options c = .ok (some text)) :
    ((Json.readText? text).isSome = true ↔
      limit < (c.tree.json .line).length ∨ c.tree.onlyFinite = true) ∧
    (∀ datum, Json.readText? text = some datum → datum = Dump.expected limit source options c) ∧
    (∀ s : String, (s.length ≤ limit → Dump.truncate limit s = s) ∧
      (0 ≤ limit → limit < s.length → Dump.truncate limit s =
        String.ofList (s.toList.take limit.toNat) ++ Dump.truncationMark) ∧
      (limit < 0 → Dump.truncate limit s =
        String.ofList (s.toList.take (s.length - limit.natAbs)) ++ Dump.truncationMark)) := by
  have hread := Dump.readText?_of_write h
  have hcond : (Dump.cutsTree limit c.tree || c.tree.onlyFinite) = true ↔
      limit < (c.tree.json .line).length ∨ c.tree.onlyFinite = true := by
    rw [Bool.or_eq_true, Dump.cutsTree, decide_eq_true_eq]
  refine ⟨?_, fun datum hd => ?_, fun s => ⟨Dump.truncate_of_le, Dump.truncate_of_lt,
    Dump.truncate_of_neg⟩⟩
  · rw [hread, ← hcond]
    cases Dump.cutsTree limit c.tree || c.tree.onlyFinite <;> simp
  · rw [hread] at hd
    split at hd
    · exact (Option.some.inj hd).symm
    · cases hd

theorem Value.hugeBound_pos : 0 < Value.hugeBound := by
  unfold Value.hugeBound
  generalize Text.maxDigits = n
  exact Nat.pow_pos (by decide)

namespace Sample

/-- The contract `a = literal;`. -/
def literalAssignment (literal : Value) : Value :=
  program [Value.node "ExpressionStatement" [("expression", Value.node "AssignmentExpression" [
    ("operator", .text "="), ("left", MeteringCall.identifier "a"),
    ("right", Value.node "Literal" [("value", literal)])])]]

/-- What compiling `a = literal;` gives. -/
def metered (literal : Value) : Compilation where
  tree := program [
    MeteringCall.statement ⟨"UltraDark", "chargeGamma"⟩ (.int 0),
    Value.node "ExpressionStatement" [("expression", Value.node "AssignmentExpression" [
      ("operator", .text "="), ("left", MeteringCall.identifier "sanitized_a"),
      ("right", Value.node "Literal" [("value", literal)])])]]
  charges := [⟨.text "ExpressionStatement", .null, 0⟩]
  warnings := []

/-- The number `1e400` stands for. -/
def overflow : Binary64 := (⟨1, 400⟩ : Decimal).toBinary64 false

/-- The number `0.1` stands for. -/
def tenth : Binary64 := (⟨1, -1⟩ : Decimal).toBinary64 false

theorem write_metered (x : Binary64) (source : String) :
    Dump.write .usable defaultDumpLimit source {} (metered (.float x)) =
      .ok (some ((Dump.value defaultDumpLimit source {} (metered (.float x))).json .pretty)) := by
  have hzero : ¬ Value.hugeBound ≤ 0 := Nat.not_le.mpr Value.hugeBound_pos
  have htree : (metered (.float x)).tree.unwritable? true = none := by
    simp [metered, program, Value.node, MeteringCall.statement, MeteringCall.callee,
      MeteringCall.identifier, MeteringCall.amountLiteral, Value.unwritable?,
      Value.unwritableItem?, Value.unwritableField?, hzero]
  have hpart : (Dump.treeValue defaultDumpLimit (metered (.float x)).tree).unwritable? true =
      none := by
    rw [Dump.treeValue_eq]
    split
    · rfl
    · exact htree
  have hvalue : (Dump.value defaultDumpLimit source {} (metered (.float x))).unwritable? true =
      none := by
    have hgamma : (metered (.float x)).totalGamma = 0 := rfl
    have hwarnings : (metered (.float x)).warningsValue = .list [] := rfl
    simp [Dump.value, Dump.optionsValue, Value.unwritable?, Value.unwritableItem?,
      Value.unwritableField?, hzero, hgamma, hwarnings, hpart]
  rw [Dump.write, Dump.content, htree, hvalue]

end Sample

/-- The dump of a contract with a literal beyond the range of numbers is no JSON text. -/
theorem overflow_breaks_dump :
    readBinary64? "1e400" = some Sample.overflow ∧
      (compile (fun _ _ => .ok (Sample.literalAssignment (.float Sample.overflow))) {} {}
        "a = 1e400;").outcome = .ok (Sample.metered (.float Sample.overflow)) ∧
      ∃ text, Dump.write .usable defaultDumpLimit "a = 1e400;" {}
          (Sample.metered (.float Sample.overflow)) = .ok (some text) ∧
        Json.readText? text = none := by
  refine ⟨rfl, rfl, _, Sample.write_metered _ _, ?_⟩
  have hwhole : Dump.cutsTree defaultDumpLimit (Sample.metered (.float Sample.overflow)).tree =
      false := by
    rw [Dump.cutsTree, Value.json, String.length_ofList]
    decide +kernel
  rw [Json.readText?_json, Dump.onlyFinite_value, hwhole]
  rfl

theorem dump_reads_back_iff_of_tenth :
    ∃ text, Dump.write .usable defaultDumpLimit "a = 0.1;" {}
        (Sample.metered (.float Sample.tenth)) = .ok (some text) ∧
      Json.readText? text = some (Dump.expected defaultDumpLimit "a = 0.1;" {}
        (Sample.metered (.float Sample.tenth))) := by
  have hw := Sample.write_metered Sample.tenth "a = 0.1;"
  obtain ⟨hreads, hdatum, -⟩ := dump_reads_back_iff hw
  have hsome := hreads.mpr (.inr (by decide))
  obtain ⟨datum, hd⟩ := Option.isSome_iff_exists.mp hsome
  exact ⟨_, hw, hdatum datum hd ▸ hd⟩

end ContractMeter
