import ContractMeter.Tree.Json

/-!
# ContractMeter.Proofs.Escape

Characters inside the quotation marks of a JSON text, and strings read back.

* `Json.isPlain`, `Json.shortEscapes` — characters that need no escape, and those with a short one.
* `Json.EscapesTo` — the ways in which a character is written.
* `TextPoint.units` — the 16-bit units of a point. An escape names a unit, so units are what a
  string in a JSON text holds.
* `Json.readUnits?` — a reader of strings; `readUnits?_quotePoints` says that it undoes all escapes.
-/

namespace ContractMeter
namespace Json

/-- Characters that may stand for themselves inside quotation marks. -/
def isPlain (c : Char) : Bool :=
  c ≠ '"' && c ≠ '\\' && 0x20 ≤ c.toNat

/-- Characters with an escape of two characters, each with the letter behind its backslash. -/
def shortEscapes : List (Char × Char) :=
  [('"', '"'), ('\\', '\\'), ('\n', 'n'), ('\r', 'r'), ('\t', 't'), ('\x08', 'b'), ('\x0c', 'f')]

/-- A character is written as the given ones. -/
inductive EscapesTo (ascii : Bool) (c : Char) : List Char → Prop where
  | plain (h : isPlain c = true) : EscapesTo ascii c (if ascii then asciiEscape c else [c])
  | short {letter : Char} (h : (c, letter) ∈ shortEscapes) : EscapesTo ascii c ['\\', letter]
  | control (h : c.toNat < 0x20) : EscapesTo ascii c (unicodeEscape c.toNat)

theorem escapeChar_escapesTo (ascii : Bool) (c : Char) :
    EscapesTo ascii c (escapeChar ascii c) := by
  have hshort {d letter : Char} (h : c = d) (hm : (d, letter) ∈ shortEscapes) :
      EscapesTo ascii c ['\\', letter] := h ▸ .short hm
  unfold escapeChar
  split
  case isTrue hq => rcases hq with rfl | rfl <;> exact .short (by decide)
  case isFalse hq =>
    iterate 5
      split
      · exact hshort ‹_› (by decide)
    split
    case isTrue hn => exact .control hn
    case isFalse hn =>
      obtain ⟨hq, hb⟩ := not_or.mp hq
      exact .plain (by simp [isPlain, hq, hb, Nat.not_lt.mp hn])

/-- Only plain characters are written as one. -/
theorem EscapesTo.of_isPlain {ascii : Bool} {c : Char} {cs : List Char} (h : EscapesTo ascii c cs)
    (hp : isPlain c = true) : cs = if ascii then asciiEscape c else [c] := by
  cases h with
  | plain _ => rfl
  | short hs =>
    have hn : ∀ entry ∈ shortEscapes, isPlain entry.1 = false := by decide
    rw [hn _ hs] at hp
    cases hp
  | control hc =>
    simp only [isPlain, Bool.and_eq_true, decide_eq_true_eq] at hp
    omega

end Json

/-! ## Units -/

/-- The 16-bit units of a point; a character beyond U+FFFF is a pair of them. -/
def TextPoint.units : TextPoint → List Nat
  | .scalar c =>
    if c.toNat < 0x10000 then [c.toNat]
    else [0xD800 + (c.toNat - 0x10000) / 0x400, 0xDC00 + (c.toNat - 0x10000) % 0x400]
  | .surrogate offset => [0xD800 + offset.val]

/-- The units of a text. -/
def textUnits (s : String) : List Nat :=
  (TextPoint.ofString s).flatMap TextPoint.units

namespace Json

/-! ## The reader -/

def hexDigit? (c : Char) : Option Nat :=
  if '0' ≤ c ∧ c ≤ '9' then some (c.toNat - '0'.toNat)
  else if 'a' ≤ c ∧ c ≤ 'f' then some (10 + (c.toNat - 'a'.toNat))
  else if 'A' ≤ c ∧ c ≤ 'F' then some (10 + (c.toNat - 'A'.toNat))
  else none

/-- The unit named by four hexadecimal digits. -/
def readHex? (a b c d : Char) : Option Nat :=
  match hexDigit? a, hexDigit? b, hexDigit? c, hexDigit? d with
  | some a, some b, some c, some d => some (((a * 16 + b) * 16 + c) * 16 + d)
  | _, _, _, _ => none

/-- The character that a letter behind a backslash stands for. -/
def unescape? : Char → Option Char
  | '"' => some '"'
  | '\\' => some '\\'
  | '/' => some '/'
  | 'b' => some '\x08'
  | 'f' => some '\x0c'
  | 'n' => some '\n'
  | 'r' => some '\r'
  | 't' => some '\t'
  | _ => none

/-- Units in front of those that are read. -/
def prepend (front : List Nat) (read : Option (List Nat × List Char)) :
    Option (List Nat × List Char) :=
  read.map fun (units, behind) => (front ++ units, behind)

/-- The units of a string behind its opening mark, and what stands behind its closing one. Control
characters have to be escaped. -/
def readUnits? : List Char → Option (List Nat × List Char)
  | [] => none
  | '"' :: behind => some ([], behind)
  | '\\' :: 'u' :: a :: b :: c :: d :: rest =>
    match readHex? a b c d with
    | some unit => prepend [unit] (readUnits? rest)
    | none => none
  | '\\' :: letter :: rest =>
    match unescape? letter with
    | some c => prepend [c.toNat] (readUnits? rest)
    | none => none
  | c :: rest =>
    if c.toNat < 0x20 then none else prepend (TextPoint.scalar c).units (readUnits? rest)

/-! ## Escapes read back -/

section

variable {rest : List Char}

theorem hexPadded_succ {k : Nat} (hk : 0 < k) (n : Nat) :
    Text.hexPadded (k + 1) n = Text.hexPadded k (n / 16) ++ [Nat.digitChar (n % 16)] := by
  unfold Text.hexPadded
  dsimp only
  by_cases hn : n < 16
  · -- a missing digit is a zero
    cases k with
    | zero => cases hk
    | succ k =>
      rw [Nat.div_eq_of_lt hn, Nat.mod_eq_of_lt hn, Nat.toDigits_of_lt_base hn, Nat.toDigits_zero]
      show List.replicate (k + 1) '0' ++ _ = List.replicate k '0' ++ ['0'] ++ _
      rw [List.replicate_succ']
  · rw [Nat.toDigits_of_base_le (by decide) (Nat.not_lt.mp hn), List.length_append,
      List.length_singleton, Nat.add_sub_add_right, List.append_assoc]

theorem hexPadded_four {n : Nat} (hn : n < 0x10000) :
    Text.hexPadded 4 n = [Nat.digitChar (n / 16 / 16 / 16), Nat.digitChar (n / 16 / 16 % 16),
      Nat.digitChar (n / 16 % 16), Nat.digitChar (n % 16)] := by
  have hone : Text.hexPadded 1 (n / 16 / 16 / 16) = [Nat.digitChar (n / 16 / 16 / 16)] := by
    rw [Text.hexPadded, Nat.toDigits_of_lt_base (by omega)]
    rfl
  rw [hexPadded_succ (by decide), hexPadded_succ (by decide), hexPadded_succ (by decide), hone]
  rfl

theorem hexDigit?_digitChar {d : Nat} (hd : d < 16) : hexDigit? (Nat.digitChar d) = some d := by
  have : ∀ d < 16, hexDigit? (Nat.digitChar d) = some d := by decide
  exact this d hd

theorem readUnits?_unicodeEscape {unit : Nat} (hu : unit < 0x10000) :
    readUnits? (unicodeEscape unit ++ rest) = prepend [unit] (readUnits? rest) := by
  have hread : readHex? (Nat.digitChar (unit / 16 / 16 / 16)) (Nat.digitChar (unit / 16 / 16 % 16))
      (Nat.digitChar (unit / 16 % 16)) (Nat.digitChar (unit % 16)) = some unit := by
    rw [readHex?, hexDigit?_digitChar (by omega), hexDigit?_digitChar (by omega),
      hexDigit?_digitChar (by omega), hexDigit?_digitChar (by omega)]
    exact congrArg some (by omega)
  rw [unicodeEscape, hexPadded_four hu]
  simp only [List.cons_append, List.nil_append, readUnits?, hread]

theorem readUnits?_short {c letter : Char} (h : (c, letter) ∈ shortEscapes) :
    readUnits? ('\\' :: letter :: rest) = prepend [c.toNat] (readUnits? rest) := by
  have hall : ∀ entry ∈ shortEscapes, unescape? entry.2 = some entry.1 ∧ entry.2 ≠ 'u' := by decide
  obtain ⟨hc, hu⟩ := hall _ h
  rw [readUnits?.eq_4 _ _ fun _ _ _ _ _ he _ => hu he, hc]

theorem readUnits?_plain {c : Char} (h : isPlain c = true) :
    readUnits? (c :: rest) = prepend (TextPoint.scalar c).units (readUnits? rest) := by
  simp only [isPlain, Bool.and_eq_true, decide_eq_true_eq] at h
  obtain ⟨⟨hq, hb⟩, hn⟩ := h
  rw [readUnits?.eq_5 _ _ hq (fun _ _ _ _ _ he _ => hb he) (fun _ _ he _ => hb he),
    if_neg (Nat.not_lt.mpr hn)]

theorem prepend_append (front back : List Nat) (read : Option (List Nat × List Char)) :
    prepend front (prepend back read) = prepend (front ++ back) read := by
  cases read with
  | none => rfl
  | some _ => exact congrArg some (Prod.ext (List.append_assoc ..).symm rfl)

theorem toNat_lt (c : Char) : c.toNat < 0x110000 := by
  rcases c.valid with h | h
  · exact Nat.lt_trans h (by decide)
  · exact h.2

theorem readUnits?_asciiEscape {c : Char} (h : isPlain c = true) :
    readUnits? (asciiEscape c ++ rest) = prepend (TextPoint.scalar c).units (readUnits? rest) := by
  have hc := toNat_lt c
  unfold asciiEscape
  dsimp only
  split
  · exact readUnits?_plain h
  rw [TextPoint.units]
  split
  · exact readUnits?_unicodeEscape ‹_›
  · rw [List.append_assoc, readUnits?_unicodeEscape (by omega), readUnits?_unicodeEscape (by omega),
      prepend_append]
    rfl

/-- A written point reads back as its units. -/
theorem readUnits?_escapePoint (p : TextPoint) :
    readUnits? (escapePoint true p ++ rest) = prepend p.units (readUnits? rest) := by
  cases p with
  | surrogate offset => exact readUnits?_unicodeEscape (by omega)
  | scalar c =>
    have hw := escapeChar_escapesTo true c
    rw [escapePoint]
    generalize escapeChar true c = cs at hw
    cases hw with
    | plain h => exact readUnits?_asciiEscape h
    | short h =>
      have hall : ∀ entry ∈ shortEscapes, (TextPoint.scalar entry.1).units = [entry.1.toNat] := by
        decide
      rw [hall _ h]
      exact readUnits?_short h
    | control h =>
      rw [TextPoint.units, if_pos (by omega)]
      exact readUnits?_unicodeEscape (by omega)

/-- **Escapes read back.** A quoted string reads back as the units of its points. -/
theorem readUnits?_quotePoints (points : List TextPoint) :
    readUnits? (points.flatMap (escapePoint true) ++ '"' :: rest) =
      some (points.flatMap TextPoint.units, rest) := by
  induction points with
  | nil => rfl
  | cons p points ih =>
    rw [List.flatMap_cons, List.append_assoc, readUnits?_escapePoint, ih]
    rfl

theorem quote_eq (s : String) : quote true s = quotePoints true (TextPoint.ofString s) := by
  rw [quote, quotePoints, TextPoint.ofString, List.flatMap_map]
  rfl

end

end Json
end ContractMeter
