import Mathlib.Algebra.Ring.Nat
import ContractMeter.Proofs.Escape
import ContractMeter.Proofs.Price

/-!
# ContractMeter.Proofs.Storage

The price of stored texts.

* `Json.bytes`, `Json.innerBytes` — the bytes of characters, and of a text inside quotation marks;
  plain characters keep theirs and all others take more.
* `gammaForLiteral_text`, `gammaForLiteral_regex` — texts and regular expressions have a price.
* `storage_has_no_discount` — a text stored in one costs what it costs in two parts, but for one
  pair of quotation marks, and no text costs less than its bytes.
-/

namespace ContractMeter

namespace Json

/-- How many bytes characters take in UTF-8. -/
def bytes (cs : List Char) : Nat :=
  (cs.map Char.utf8Size).sum

@[simp]
theorem bytes_cons (c : Char) (cs : List Char) : bytes (c :: cs) = c.utf8Size + bytes cs := rfl

@[simp]
theorem bytes_append (front back : List Char) :
    bytes (front ++ back) = bytes front + bytes back := by
  rw [bytes, List.map_append, List.sum_append, bytes, bytes]

theorem utf8ByteSize_ofList (cs : List Char) : (String.ofList cs).utf8ByteSize = bytes cs := by
  induction cs with
  | nil => rfl
  | cons c rest ih =>
    rw [String.ofList_cons, String.utf8ByteSize_append, String.utf8ByteSize_singleton, ih,
      bytes_cons]

theorem bytes_toList (s : String) : bytes s.toList = s.utf8ByteSize := by
  rw [← utf8ByteSize_ofList, String.ofList_toList]

theorem bytes_escapeChar_of_isPlain {c : Char} (h : isPlain c = true) :
    bytes (escapeChar false c) = c.utf8Size := by
  rw [(escapeChar_escapesTo false c).of_isPlain h]
  rfl

theorem utf8Size_of_not_isPlain {c : Char} (h : isPlain c = false) : c.utf8Size = 1 := by
  have hcode : c.toNat < 0x80 := by
    by_cases hq : c = '"' ∨ c = '\\'
    · rcases hq with rfl | rfl <;> decide
    · rw [not_or] at hq
      have hn : c.toNat < 0x20 := by simpa [isPlain, hq] using h
      omega
  rw [Char.utf8Size_eq_one_iff, UInt32.le_iff_toNat_le]
  exact Nat.le_of_lt_succ hcode

/-- An escape has a character behind its backslash. -/
theorem lt_bytes_escapeChar {c : Char} (h : isPlain c = false) :
    c.utf8Size < bytes (escapeChar false c) := by
  have he : ∃ d rest, escapeChar false c = '\\' :: d :: rest := by
    have hw := escapeChar_escapesTo false c
    generalize escapeChar false c = cs at hw
    cases hw with
    | plain hp => exact absurd (hp.symm.trans h) nofun
    | short _ => exact ⟨_, _, rfl⟩
    | control _ => exact ⟨_, _, rfl⟩
  obtain ⟨d, rest, he⟩ := he
  have hd := d.utf8Size_pos
  have hb : '\\'.utf8Size = 1 := rfl
  rw [he, bytes_cons, bytes_cons, utf8Size_of_not_isPlain h]
  omega

/-- How many bytes a text takes between quotation marks. -/
def innerBytes (s : String) : Nat :=
  bytes (s.toList.flatMap (escapeChar false))

theorem innerBytes_append (s t : String) : innerBytes (s ++ t) = innerBytes s + innerBytes t := by
  rw [innerBytes, String.toList_append, List.flatMap_append, bytes_append, innerBytes, innerBytes]

/-- No character takes less inside quotation marks, and exactly the plain ones take no more. -/
theorem bytes_le_escaped (cs : List Char) :
    bytes cs ≤ bytes (cs.flatMap (escapeChar false)) ∧
      (bytes (cs.flatMap (escapeChar false)) = bytes cs ↔ ∀ c ∈ cs, isPlain c = true) := by
  induction cs with
  | nil => exact ⟨Nat.le_refl _, ⟨nofun, fun _ => rfl⟩⟩
  | cons c rest ih =>
    obtain ⟨hle, heq⟩ := ih
    rw [List.flatMap_cons, bytes_append, bytes_cons, List.forall_mem_cons, ← heq]
    cases h : isPlain c with
    | true =>
      rw [bytes_escapeChar_of_isPlain h]
      exact ⟨by omega, by simp⟩
    | false =>
      have hlt := lt_bytes_escapeChar h
      exact ⟨by omega, fun he => by omega, fun h => absurd h.1 Bool.false_ne_true⟩

theorem le_innerBytes (s : String) : s.utf8ByteSize ≤ innerBytes s := by
  rw [← bytes_toList]
  exact (bytes_le_escaped _).1

theorem innerBytes_eq_iff (s : String) :
    innerBytes s = s.utf8ByteSize ↔ ∀ c ∈ s.toList, isPlain c = true := by
  rw [← bytes_toList]
  exact (bytes_le_escaped _).2

@[simp]
theorem bytes_quote (s : String) : bytes (quote false s) = 2 + innerBytes s := by
  have hq : '"'.utf8Size = 1 := rfl
  rw [quote, bytes_cons, bytes_append, bytes_cons, innerBytes, hq]
  show 1 + (_ + (1 + 0)) = _
  omega

end Json

open Json

theorem gammaForLiteral_text (s : String) :
    gammaForLiteral (.text s) = .ok (gammaPerByte * (2 + innerBytes s)) := by
  have hj : ((Value.text s).json .compact).utf8ByteSize = 2 + innerBytes s := by
    rw [Value.json, utf8ByteSize_ofList, Value.jsonChars, bytes_append]
    exact bytes_quote s
  rw [← hj]
  rfl

/-- What a regular expression stores. -/
def regexParts (pattern flags : String) : Value :=
  .record [("pattern", .text pattern), ("flags", .text flags)]

/-- The names of both parts, the colons, the comma and the braces take 21 bytes. -/
theorem gammaForLiteral_regex (pattern flags : String) :
    gammaForLiteral (regexParts pattern flags) =
      .ok (gammaPerByte * (2 + innerBytes pattern) + gammaPerByte * (2 + innerBytes flags) +
        21 * gammaPerByte) := by
  have hj : ((regexParts pattern flags).json .compact).utf8ByteSize =
      (2 + innerBytes pattern) + (2 + innerBytes flags) + 21 := by
    rw [Value.json, utf8ByteSize_ofList, regexParts]
    simp only [Value.jsonChars, Value.jsonFields, JsonStyle.compact, newline, bytes_append,
      bytes_cons, bytes_quote]
    have hp : innerBytes "pattern" = 7 := by decide
    have hf : innerBytes "flags" = 5 := by decide
    rw [hp, hf]
    show 1 + (0 + (2 + 7) + 1 + (2 + innerBytes pattern + (1 + 0 + (2 + 5) + 1 +
      (2 + innerBytes flags + (0 + (1 + 0)))))) = _
    omega
  have hg : gammaForLiteral (regexParts pattern flags) =
      .ok (gammaPerByte * ((regexParts pattern flags).json .compact).utf8ByteSize) := rfl
  rw [hg, hj, Nat.mul_add, Nat.mul_add, Nat.mul_comm gammaPerByte 21]

theorem gammaFor_declarator {p : Pricing} {depth : Int} (hd : depth ≤ p.maxDepth) {v : Value}
    (hk : v.hasKind "VariableDeclarator" = true)
    (hl : (v.field "init").hasKind "Literal" = true) :
    p.gammaFor depth v =
      Pricing.settled (gammaForLiteral (Pricing.declaredLiteral (v.field "init"))) := by
  obtain ⟨levels, hlevels⟩ : ∃ levels, levelsLeft p.maxDepth depth = levels + 1 :=
    Nat.exists_eq_succ_of_ne_zero (by unfold levelsLeft; omega)
  have hv : ∀ items, v ≠ .list items := by
    rintro items rfl
    cases hk
  have hkind : v.kind = .text "VariableDeclarator" := by
    rw [Value.kind, Value.hasKind_iff.mp hk]
    rfl
  have hinit : v.field "init" ≠ .null := fun he => by
    rw [he] at hl
    cases hl
  rw [Pricing.gammaFor, hlevels, Pricing.gammaAt_succ hv, hkind]
  show Pricing.initial _ (v.field "init") = _
  rw [Pricing.initial_of_ne_null hinit, if_pos hl]

/-- **Storage has no discount.** A text put together from two costs what these cost apart, less one
pair of quotation marks. A text costs at least its bytes and its quotation marks, and no more if
and only if it has no quotation mark, no backslash and no control character. A declared regular
expression costs its pattern, its flags and 21 bytes, whatever its literal holds besides; this is
never less than what its pattern or its whole text would cost as a string. -/
theorem storage_has_no_discount :
    (∀ s t : String, ∃ a b c, gammaForLiteral (.text s) = .ok a ∧
      gammaForLiteral (.text t) = .ok b ∧ gammaForLiteral (.text (s ++ t)) = .ok c ∧
      c + 2 * 2500 = a + b) ∧
    (∀ s : String, ∃ a, gammaForLiteral (.text s) = .ok a ∧ 2500 * (2 + s.utf8ByteSize) ≤ a ∧
      (a = 2500 * (2 + s.utf8ByteSize) ↔
        ∀ c ∈ s.toList, c ≠ '"' ∧ c ≠ '\\' ∧ 0x20 ≤ c.toNat)) ∧
    (∀ (p : Pricing) (depth : Int) (declarator : Value) (pattern flags : String),
      depth ≤ p.maxDepth → declarator.hasKind "VariableDeclarator" = true →
      (declarator.field "init").hasKind "Literal" = true →
      (declarator.field "init").field "regex" = regexParts pattern flags →
      ∃ a b c d, gammaForLiteral (.text pattern) = .ok a ∧ gammaForLiteral (.text flags) = .ok b ∧
        (p.gammaFor depth declarator).Yields .empty (a + b + 21 * 2500) ∧
        gammaForLiteral (.text ("/" ++ pattern ++ "/" ++ flags)) = .ok c ∧
        gammaForLiteral (.text (pattern ++ flags)) = .ok d ∧
        a ≤ a + b + 21 * 2500 ∧ c ≤ a + b + 21 * 2500 ∧ d ≤ a + b + 21 * 2500) := by
  refine ⟨fun s t => ?_, fun s => ?_, fun p depth declarator pattern flags hd hk hl hr => ?_⟩
  · refine ⟨_, _, _, gammaForLiteral_text s, gammaForLiteral_text t, gammaForLiteral_text _, ?_⟩
    rw [innerBytes_append, gammaPerByte]
    omega
  · refine ⟨_, gammaForLiteral_text s, ?_, ?_⟩
    · exact Nat.mul_le_mul_left _ (Nat.add_le_add_left (le_innerBytes s) 2)
    · have he := innerBytes_eq_iff s
      simp only [isPlain, Bool.and_eq_true, decide_eq_true_eq, and_assoc] at he
      rw [← he, gammaPerByte]
      omega
  · have hlit : Pricing.declaredLiteral (declarator.field "init") = regexParts pattern flags := by
      rw [Pricing.declaredLiteral, hr]
      rfl
    have hslash : innerBytes "/" = 1 := by decide
    refine ⟨_, _, _, _, gammaForLiteral_text pattern, gammaForLiteral_text flags, ?_,
      gammaForLiteral_text _, gammaForLiteral_text _, ?_⟩
    · rw [gammaFor_declarator hd hk hl, hlit, gammaForLiteral_regex]
      rfl
    · simp only [innerBytes_append, hslash, gammaPerByte]
      omega

/-- The declarator of `const digits = /[0-9]"é"/gu;`, whose host value is a compiled pattern. -/
theorem storage_has_no_discount_of_digits :
    let declarator := Value.node "VariableDeclarator" [("init", Value.node "Literal" [
      ("value", .host (.pattern (TextPoint.ofString "[0-9]\"é\"") [])),
      ("regex", regexParts "[0-9]\"é\"" "gu")])]
    declarator.hasKind "VariableDeclarator" = true ∧
      (declarator.field "init").hasKind "Literal" = true ∧
      ((⟨true, 10⟩ : Pricing).gammaFor 10 declarator).Yields .empty
        (2500 * 13 + 2500 * 4 + 21 * 2500) := by
  intro declarator
  obtain ⟨-, -, hregex⟩ := storage_has_no_discount
  obtain ⟨a, b, _, _, ha, hb, hy, -⟩ :=
    hregex ⟨true, 10⟩ 10 declarator "[0-9]\"é\"" "gu" (Int.le_refl _) rfl rfl rfl
  have ha' : a = 2500 * 13 :=
    (Except.ok.inj (ha.symm.trans (gammaForLiteral_text _))).trans (by decide)
  have hb' : b = 2500 * 4 :=
    (Except.ok.inj (hb.symm.trans (gammaForLiteral_text _))).trans (by decide)
  exact ⟨rfl, rfl, ha' ▸ hb' ▸ hy⟩

end ContractMeter
