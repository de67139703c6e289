import ContractMeter.Proofs.Escape
import ContractMeter.Proofs.Numeral
import ContractMeter.Proofs.Shortest

/-!
# ContractMeter.Proofs.JsonNumber

Numbers in JSON texts.

* `Datum` — what a JSON text stands for.
* `Json.readNumber?` — a reader of numbers: an integer, or the floating-point number nearest to a
  numeral with a point or an exponent.
* `Json.Numeral` — the parts of a numeral; `Json.readNumber?_chars` says that they are read back.
* `Json.writes_signed`, `Json.writes_format` — integers and finite numbers are written as numerals
  that stand for them.
-/

namespace ContractMeter

/-- What a JSON text stands for. Strings are 16-bit units, and members stay in their order. -/
inductive Datum where
  | null
  | bool (b : Bool)
  | int (n : Int)
  | float (x : Binary64)
  | text (units : List Nat)
  | list (items : List Datum)
  | record (members : List (List Nat × Datum))

namespace Json

/-! ## The reader -/

/-- Whether digits may stand before the point: a zero only by itself. -/
def isWhole : List Char → Bool
  | [] => false
  | ['0'] => true
  | d :: _ => d ≠ '0'

def readSign : List Char → Bool × List Char
  | '-' :: cs => (true, cs)
  | cs => (false, cs)

/-- A point with digits behind it, or nothing. -/
def readPlaces? : List Char → Option (Option (List Char) × List Char)
  | '.' :: cs =>
    let (places, behind) := Decimal.splitDigits cs
    if places.isEmpty then none else some (some places, behind)
  | cs => some (none, cs)

/-- The sign of an exponent, which may be a plus. -/
def readExponentSign : List Char → Bool × List Char
  | '+' :: cs => (false, cs)
  | cs => readSign cs

/-- An exponent, or nothing. -/
def readExponent? : List Char → Option (Option Int × List Char)
  | [] => some (none, [])
  | c :: cs =>
    if c = 'e' ∨ c = 'E' then
      let (negative, cs) := readExponentSign cs
      let (digits, behind) := Decimal.splitDigits cs
      let magnitude : Int := Decimal.ofDigits digits
      if digits.isEmpty then none
      else some (some (if negative then -magnitude else magnitude), behind)
    else some (none, c :: cs)

/-- The parts of a numeral. -/
structure Numeral where
  negative : Bool
  whole : List Char
  places : Option (List Char)
  exponent : Option Int

/-- The decimal a numeral is written as. -/
def Numeral.decimal (n : Numeral) : Decimal where
  digits := Decimal.ofDigits (n.whole ++ n.places.getD [])
  exponent := n.exponent.getD 0 - (n.places.getD []).length

/-- A numeral without point and exponent is an integer. -/
def Numeral.datum (n : Numeral) : Datum :=
  if n.places.isNone && n.exponent.isNone then
    let magnitude : Int := Decimal.ofDigits n.whole
    .int (if n.negative then -magnitude else magnitude)
  else
    .float (n.decimal.toBinary64 n.negative)

/-- Reads a number, and what stands behind it. -/
def readNumber? (cs : List Char) : Option (Datum × List Char) :=
  let (negative, cs) := readSign cs
  let (whole, cs) := Decimal.splitDigits cs
  if isWhole whole then
    match readPlaces? cs with
    | none => none
    | some (places, cs) =>
      (readExponent? cs).map fun (exponent, behind) =>
        (Numeral.datum ⟨negative, whole, places, exponent⟩, behind)
  else
    none

/-! ## Numerals read back -/

namespace Numeral

def placesChars : Option (List Char) → List Char
  | none => []
  | some places => '.' :: places

def exponentChars : Option Int → List Char
  | none => []
  | some e => 'e' :: (DecimalLayout.exponentText e).toList

def signChars (negative : Bool) : List Char :=
  if negative then ['-'] else []

/-- A numeral as it is written, with others behind it. -/
def chars (n : Numeral) (behind : List Char) : List Char :=
  signChars n.negative ++
    (n.whole ++ (placesChars n.places ++ (exponentChars n.exponent ++ behind)))

/-- A numeral of the grammar. -/
structure WellFormed (n : Numeral) : Prop where
  whole : isWhole n.whole = true
  digits : ∀ c ∈ n.whole, c.isDigit = true
  places : ∀ ds ∈ n.places, ds ≠ [] ∧ ∀ c ∈ ds, c.isDigit = true

end Numeral

/-- No numeral goes on with what stands behind. -/
def EndsNumber (behind : List Char) : Prop :=
  ∀ c ∈ behind.head?, c.isDigit = false ∧ c ≠ '.' ∧ c ≠ 'e' ∧ c ≠ 'E'

section

variable {behind : List Char}

theorem EndsNumber.endsDigits (h : EndsNumber behind) : Decimal.EndsDigits behind :=
  fun c hc => (h c hc).1

theorem endsDigits_cons {c : Char} {cs : List Char} (h : c.isDigit = false) :
    Decimal.EndsDigits (c :: cs) := by
  intro d hd
  cases hd
  exact h

/-- Digits are no signs. -/
theorem readSign_of_digits {ds cs : List Char} (hne : ds ≠ []) (hd : ∀ c ∈ ds, c.isDigit = true) :
    readSign (ds ++ cs) = (false, ds ++ cs) ∧ readExponentSign (ds ++ cs) = (false, ds ++ cs) := by
  cases ds with
  | nil => exact absurd rfl hne
  | cons d ds =>
    have hdigit := hd d (List.mem_cons_self ..)
    have hs : readSign (d :: ds ++ cs) = (false, d :: ds ++ cs) :=
      readSign.eq_2 _ fun cs he => by
        cases he
        cases hdigit
    refine ⟨hs, ?_⟩
    rw [← hs]
    exact readExponentSign.eq_2 _ fun cs he => by
      cases he
      cases hdigit

theorem readSign_signChars (negative : Bool) {ds cs : List Char} (hne : ds ≠ [])
    (hd : ∀ c ∈ ds, c.isDigit = true) :
    readSign (Numeral.signChars negative ++ (ds ++ cs)) = (negative, ds ++ cs) := by
  cases negative with
  | true => rfl
  | false => exact (readSign_of_digits hne hd).1

/-- The digits of an exponent, at least two of them. -/
def exponentDigits (e : Int) : List Char :=
  if (Nat.toDigits 10 e.natAbs).length < 2 then '0' :: Nat.toDigits 10 e.natAbs
  else Nat.toDigits 10 e.natAbs

theorem toList_exponentText (e : Int) : (DecimalLayout.exponentText e).toList =
    (if e < 0 then '-' else '+') :: exponentDigits e := by
  unfold DecimalLayout.exponentText exponentDigits
  dsimp only
  rw [Nat.toString_eq_repr, String.toList_append, ← String.length_toList, Nat.toList_repr]
  split <;> split <;> simp [String.toList_append, Nat.toList_repr]

theorem exponentDigits_spec (e : Int) : exponentDigits e ≠ [] ∧
    (∀ c ∈ exponentDigits e, c.isDigit = true) ∧
    Decimal.ofDigits (exponentDigits e) = e.natAbs := by
  have hd := Decimal.isDigit_toDigits e.natAbs
  unfold exponentDigits
  split
  · refine ⟨List.cons_ne_nil _ _, ?_, ?_⟩
    · rw [List.forall_mem_cons]
      exact ⟨rfl, hd⟩
    · exact Decimal.ofDigits_toDigits _
  · exact ⟨Nat.toDigits_ne_nil, hd, Decimal.ofDigits_toDigits _⟩

theorem readExponent?_exponentText (e : Int) (h : Decimal.EndsDigits behind) :
    readExponent? ('e' :: ((DecimalLayout.exponentText e).toList ++ behind)) =
      some (some e, behind) := by
  obtain ⟨hne, hd, hv⟩ := exponentDigits_spec e
  have hsign : readExponentSign ((DecimalLayout.exponentText e).toList ++ behind) =
      (decide (e < 0), exponentDigits e ++ behind) := by
    rw [toList_exponentText]
    by_cases he : e < 0
    · rw [if_pos he, decide_eq_true he]
      rfl
    · rw [if_neg he, decide_eq_false he]
      rfl
  have hempty : (exponentDigits e).isEmpty = false := by simp [hne]
  rw [readExponent?, if_pos (.inl rfl), hsign]
  dsimp only
  rw [Decimal.splitDigits_append hd h]
  dsimp only
  rw [hempty, hv, if_neg Bool.false_ne_true]
  refine congrArg some (Prod.ext (congrArg some ?_) rfl)
  by_cases he : e < 0
  · rw [decide_eq_true he, if_pos rfl]
    omega
  · rw [decide_eq_false he, if_neg Bool.false_ne_true]
    omega

theorem readExponent?_chars (exponent : Option Int) (h : EndsNumber behind) :
    readExponent? (Numeral.exponentChars exponent ++ behind) = some (exponent, behind) := by
  cases exponent with
  | some e => exact readExponent?_exponentText e h.endsDigits
  | none =>
    cases behind with
    | nil => rfl
    | cons c cs =>
      obtain ⟨-, -, he, hE⟩ := h c rfl
      exact if_neg (not_or.mpr ⟨he, hE⟩)

/-- Behind the digits stand a point, an exponent or what follows the numeral. -/
theorem endsDigits_exponentChars (exponent : Option Int) (h : EndsNumber behind) :
    Decimal.EndsDigits (Numeral.exponentChars exponent ++ behind) := by
  cases exponent with
  | some e => exact endsDigits_cons rfl
  | none => exact h.endsDigits

theorem readPlaces?_chars {places : Option (List Char)} {cs : List Char}
    (hp : ∀ ds ∈ places, ds ≠ [] ∧ ∀ c ∈ ds, c.isDigit = true) (hd : Decimal.EndsDigits cs)
    (hpoint : ∀ c ∈ cs.head?, c ≠ '.') :
    readPlaces? (Numeral.placesChars places ++ cs) = some (places, cs) := by
  cases places with
  | none =>
    refine readPlaces?.eq_2 _ fun rest (he : cs = '.' :: rest) => hpoint '.' ?_ rfl
    rw [he]
    rfl
  | some ds =>
    obtain ⟨hne, hds⟩ := hp ds rfl
    have hempty : ds.isEmpty = false := by simp [hne]
    show readPlaces? ('.' :: (ds ++ cs)) = _
    rw [readPlaces?]
    dsimp only
    rw [Decimal.splitDigits_append hds hd]
    dsimp only
    rw [hempty, if_neg Bool.false_ne_true]

/-- **Numerals read back.** -/
theorem readNumber?_chars {n : Numeral} (hn : n.WellFormed) (h : EndsNumber behind) :
    readNumber? (n.chars behind) = some (n.datum, behind) := by
  obtain ⟨negative, whole, places, exponent⟩ := n
  have hwhole : whole ≠ [] := by
    rintro rfl
    cases hn.whole
  have hexponent := endsDigits_exponentChars exponent h
  have hplaces : Decimal.EndsDigits
      (Numeral.placesChars places ++ (Numeral.exponentChars exponent ++ behind)) := by
    cases places with
    | some ds => exact endsDigits_cons rfl
    | none => exact hexponent
  have hpoint : ∀ c ∈ (Numeral.exponentChars exponent ++ behind).head?, c ≠ '.' := by
    cases exponent with
    | some e =>
      intro c hc
      cases hc
      decide
    | none => exact fun c hc => (h c hc).2.1
  rw [readNumber?, Numeral.chars]
  dsimp only
  rw [readSign_signChars negative hwhole hn.digits]
  dsimp only
  rw [Decimal.splitDigits_append hn.digits hplaces]
  dsimp only
  rw [if_pos hn.whole, readPlaces?_chars hn.places hexponent hpoint]
  dsimp only
  rw [readExponent?_chars exponent h]
  rfl

end

/-! ## Numbers are written as numerals -/

/-- A numeral that is written as the given characters and stands for a datum. -/
def Writes (cs : List Char) (datum : Datum) : Prop :=
  ∃ n : Numeral, n.WellFormed ∧ (∀ behind, cs ++ behind = n.chars behind) ∧ n.datum = datum

theorem Writes.readNumber? {cs behind : List Char} {datum : Datum} (hw : Writes cs datum)
    (h : EndsNumber behind) : readNumber? (cs ++ behind) = some (datum, behind) := by
  obtain ⟨n, hn, hc, rfl⟩ := hw
  rw [hc, readNumber?_chars hn h]

theorem isWhole_of_head {d : Char} {rest : List Char} (hd : d ≠ '0') :
    isWhole (d :: rest) = true := by
  rw [isWhole.eq_3 d rest fun he _ => hd he]
  exact decide_eq_true hd

theorem isWhole_toDigits (n : ℕ) : isWhole (Nat.toDigits 10 n) = true := by
  by_cases hn : n = 0
  · rw [hn]
    rfl
  · obtain ⟨d, rest, he, hd⟩ := Decimal.toDigits_head hn
    rw [he]
    exact isWhole_of_head hd

theorem writes_signed (n : ℤ) : Writes (Text.signed n) (.int n) := by
  refine ⟨⟨n < 0, Nat.toDigits 10 n.natAbs, none, none⟩,
    ⟨isWhole_toDigits _, Decimal.isDigit_toDigits _, nofun⟩, fun behind => ?_, ?_⟩
  · unfold Text.signed
    by_cases hn : n < 0
    · rw [if_pos hn, Numeral.chars, decide_eq_true hn]
      rfl
    · rw [if_neg hn, Numeral.chars, decide_eq_false hn]
      rfl
  · show Datum.int (if decide (n < 0) = true then
      -(Decimal.ofDigits (Nat.toDigits 10 n.natAbs) : ℤ)
      else Decimal.ofDigits (Nat.toDigits 10 n.natAbs)) = _
    rw [Decimal.ofDigits_toDigits]
    by_cases hn : n < 0
    · rw [decide_eq_true hn, if_pos rfl]
      exact congrArg Datum.int (by omega)
    · rw [decide_eq_false hn, if_neg Bool.false_ne_true]
      exact congrArg Datum.int (by omega)

/-- Behind a sign the characters are a numeral with a point or an exponent, of the given value. -/
def Denotes (negative : Bool) (cs : List Char) (d : Decimal) : Prop :=
  ∃ n : Numeral, n.WellFormed ∧ n.negative = negative ∧
    (n.places.isNone && n.exponent.isNone) = false ∧
    (∀ behind, Numeral.signChars negative ++ cs ++ behind = n.chars behind) ∧
    n.decimal.value = d.value

theorem value_of_parts {n : Numeral} {d : Decimal}
    (hdigits : Decimal.ofDigits (n.whole ++ n.places.getD []) = d.digits)
    (hexponent : n.exponent.getD 0 - (n.places.getD []).length = d.exponent) :
    n.decimal.value = d.value := by
  rw [Decimal.value, Decimal.value, Numeral.decimal, hdigits, hexponent]

section Layout

variable {d : Decimal} (hd : d.digits ≠ 0) (negative : Bool)

/-- The digits of a decimal. -/
def digitsOf (d : Decimal) : List Char := Nat.toDigits 10 d.digits

theorem length_toString (d : Decimal) : (toString d.digits).length = (digitsOf d).length := by
  rw [Nat.toString_eq_repr, ← String.length_toList, Nat.toList_repr, digitsOf]

theorem toList_toString (d : Decimal) : (toString d.digits).toList = digitsOf d := by
  rw [Nat.toString_eq_repr, Nat.toList_repr, digitsOf]

theorem isDigit_zeros (k : ℕ) : ∀ c ∈ List.replicate k '0', c.isDigit = true := by
  intro c hc
  rw [List.eq_of_mem_replicate hc]
  rfl

include hd

/-- An integer is filled up with zeros and has one place. -/
theorem denotes_whole (h : 0 ≤ d.exponent) :
    Denotes negative (DecimalLayout.positional d).toList d := by
  obtain ⟨c, rest, he, hc⟩ := Decimal.toDigits_head hd
  refine ⟨⟨negative, digitsOf d ++ List.replicate d.exponent.toNat '0', some ['0'], none⟩,
    ⟨?_, ?_, ?_⟩, rfl, rfl, fun behind => ?_, ?_⟩
  · rw [digitsOf, he]
    exact isWhole_of_head hc
  · rw [List.forall_mem_append]
    exact ⟨Decimal.isDigit_toDigits _, isDigit_zeros _⟩
  · rintro ds hds
    cases hds
    exact ⟨List.cons_ne_nil _ _, List.forall_mem_singleton.mpr rfl⟩
  · rw [DecimalLayout.positional, if_pos h]
    simp [Numeral.chars, Numeral.placesChars, Numeral.exponentChars, DecimalLayout.zeros,
      digitsOf, Nat.toList_repr]
  · have hdigits : Decimal.ofDigits (digitsOf d ++ List.replicate d.exponent.toNat '0' ++ ['0']) =
        10 * (10 ^ d.exponent.toNat * d.digits) := by
      rw [Decimal.ofDigits_append, Decimal.ofDigits_append, Decimal.ofDigits_zeros, digitsOf,
        Decimal.ofDigits_toDigits, List.length_replicate]
      rfl
    have hexponent : (10 : ℚ) ^ d.exponent = 10 ^ d.exponent.toNat := by
      rw [← zpow_natCast, Int.toNat_of_nonneg h]
    show ((Decimal.ofDigits (digitsOf d ++ List.replicate d.exponent.toNat '0' ++ ['0']) : ℕ) : ℚ) *
      10 ^ (-1 : ℤ) = d.digits * 10 ^ d.exponent
    rw [hdigits, hexponent, zpow_neg_one]
    push_cast
    field_simp

/-- With fewer places than digits the point stands between them. -/
theorem denotes_mixed (h : d.exponent < 0) (hp : 0 < (digitsOf d).length + d.exponent) :
    Denotes negative (DecimalLayout.positional d).toList d := by
  obtain ⟨c, rest, he, hc⟩ := Decimal.toDigits_head hd
  obtain ⟨k, hk⟩ : ∃ k : ℕ, (digitsOf d).length + d.exponent = k + 1 :=
    ⟨((digitsOf d).length + d.exponent - 1).toNat, by omega⟩
  have hdigit := Decimal.isDigit_toDigits d.digits
  have hsplit : (digitsOf d).take (k + 1) ++ (digitsOf d).drop (k + 1) = digitsOf d :=
    List.take_append_drop ..
  refine ⟨⟨negative, (digitsOf d).take (k + 1), some ((digitsOf d).drop (k + 1)), none⟩,
    ⟨?_, fun c hc => hdigit c (List.mem_of_mem_take hc), ?_⟩, rfl, rfl, fun behind => ?_, ?_⟩
  · rw [digitsOf, he]
    exact isWhole_of_head hc
  · rintro ds hds
    cases hds
    refine ⟨fun hnil => ?_, fun c hc => hdigit c (List.mem_of_mem_drop hc)⟩
    rw [List.drop_eq_nil_iff] at hnil
    omega
  · rw [DecimalLayout.positional, if_neg (by omega), length_toString, if_pos hp, hk,
      toList_toString]
    simp [Numeral.chars, Numeral.placesChars, Numeral.exponentChars]
  · apply value_of_parts
    · show Decimal.ofDigits ((digitsOf d).take (k + 1) ++ (digitsOf d).drop (k + 1)) = _
      rw [hsplit, digitsOf, Decimal.ofDigits_toDigits]
    · show 0 - (((digitsOf d).drop (k + 1)).length : ℤ) = _
      rw [List.length_drop]
      omega

omit hd in
/-- With at least as many places as digits these stand behind the point and zeros. -/
theorem denotes_fraction (h : d.exponent < 0) (hp : (digitsOf d).length + d.exponent ≤ 0) :
    Denotes negative (DecimalLayout.positional d).toList d := by
  obtain ⟨k, hk⟩ : ∃ k : ℕ, -((digitsOf d).length + d.exponent) = k :=
    ⟨(-((digitsOf d).length + d.exponent)).toNat, by omega⟩
  refine ⟨⟨negative, ['0'], some (List.replicate k '0' ++ digitsOf d), none⟩,
    ⟨rfl, List.forall_mem_singleton.mpr rfl, ?_⟩, rfl, rfl, fun behind => ?_, ?_⟩
  · rintro ds hds
    cases hds
    refine ⟨fun hnil => Nat.toDigits_ne_nil (List.append_eq_nil_iff.mp hnil).2, ?_⟩
    rw [List.forall_mem_append]
    exact ⟨isDigit_zeros k, Decimal.isDigit_toDigits _⟩
  · rw [DecimalLayout.positional, if_neg (by omega), length_toString, if_neg (by omega), hk]
    simp [Numeral.chars, Numeral.placesChars, Numeral.exponentChars, DecimalLayout.zeros, digitsOf,
      Nat.toList_repr]
  · apply value_of_parts
    · show Decimal.ofDigits (['0'] ++ (List.replicate k '0' ++ digitsOf d)) = _
      rw [Decimal.ofDigits_append, Decimal.ofDigits_append, Decimal.ofDigits_zeros, digitsOf,
        Decimal.ofDigits_toDigits]
      show _ * 0 + (_ * 0 + _) = _
      omega
    · show 0 - ((List.replicate k '0' ++ digitsOf d).length : ℤ) = _
      rw [List.length_append, List.length_replicate]
      omega

theorem denotes_positional : Denotes negative (DecimalLayout.positional d).toList d := by
  by_cases h : 0 ≤ d.exponent
  · exact denotes_whole hd negative h
  · by_cases hp : 0 < (digitsOf d).length + d.exponent
    · exact denotes_mixed hd negative (not_le.mp h) hp
    · exact denotes_fraction negative (not_le.mp h) (not_lt.mp hp)

theorem denotes_scientific : Denotes negative (DecimalLayout.scientific d).toList d := by
  obtain ⟨c, rest, he, hc⟩ := Decimal.toDigits_head hd
  have hdigit := Decimal.isDigit_toDigits d.digits
  have hdigits : digitsOf d = c :: rest := he
  rw [he, List.forall_mem_cons] at hdigit
  have hvalue : Decimal.ofDigits (c :: rest) = d.digits := by
    rw [← he, Decimal.ofDigits_toDigits]
  refine ⟨⟨negative, [c], if rest.isEmpty then none else some rest,
    some ((digitsOf d).length + d.exponent - 1)⟩, ⟨isWhole_of_head hc, ?_, ?_⟩, rfl,
      Bool.and_false _, fun behind => ?_, ?_⟩
  · rw [List.forall_mem_singleton]
    exact hdigit.1
  · rintro ds hds
    dsimp only at hds
    split at hds
    · cases hds
    · cases hds
      exact ⟨by simpa using ‹¬rest.isEmpty = true›, hdigit.2⟩
  · rw [DecimalLayout.scientific, toList_toString, hdigits]
    cases rest <;> simp [Numeral.chars, Numeral.placesChars, Numeral.exponentChars]
  · apply value_of_parts
    · cases rest <;> exact hvalue
    · rw [hdigits]
      cases rest with
      | nil => simp
      | cons d ds =>
        simp
        omega

end Layout

/-- A numeral with the value of a number's shortest decimal stands for the number. -/
theorem Denotes.writes {x : Binary64} {cs : List Char} (hx : x.isFinite = true)
    (hz : x.isZero = false) (h : Denotes x.negative cs x.shortest) :
    Writes (Numeral.signChars x.negative ++ cs) (.float x) := by
  obtain ⟨n, hn, hs, hf, hc, hv⟩ := h
  refine ⟨n, hn, hc, ?_⟩
  rw [Numeral.datum, hf, if_neg Bool.false_ne_true, hs,
    Decimal.toBinary64_of_covers hx (Binary64.significand_ne_zero hz)
      (hv ▸ Binary64.shortest_covers hz)]

theorem writes_zero {x : Binary64} (hz : x.isZero = true) :
    Writes (Numeral.signChars x.negative ++ "0.0".toList) (.float x) := by
  refine ⟨⟨x.negative, ['0'], some ['0'], none⟩, ⟨rfl, List.forall_mem_singleton.mpr rfl, ?_⟩,
    fun behind => ?_, ?_⟩
  · rintro ds hds
    cases hds
    exact ⟨List.cons_ne_nil _ _, List.forall_mem_singleton.mpr rfl⟩
  · simp [Numeral.chars, Numeral.placesChars, Numeral.exponentChars]
  · obtain ⟨negative, exponent, fraction⟩ := x
    simp only [Binary64.isZero, Bool.and_eq_true, decide_eq_true_eq] at hz
    have he : exponent = 0 := Fin.ext hz.1
    have hf : fraction = 0 := Fin.ext hz.2
    rw [he, hf]
    rfl

/-- **Finite numbers read back.** A finite number is written as a numeral that rounds to it. -/
theorem writes_format {x : Binary64} (hx : x.isFinite = true) :
    Writes (x.format floatLayout).toList (.float x) := by
  have hnan : x.isNaN = false := by simp [Binary64.isNaN, hx]
  have hsign (s : String) : ((if (x.negative && !x.isNaN) = true then "-" else "") ++ s).toList =
      Numeral.signChars x.negative ++ s.toList := by
    rw [hnan, String.toList_append]
    cases x.negative <;> rfl
  unfold Binary64.format
  dsimp only
  rw [if_neg (by simp [hnan]), if_neg (by simp [hx])]
  cases hz : x.isZero with
  | true =>
    rw [if_pos rfl, hsign]
    exact writes_zero hz
  | false =>
    have hd : x.shortest.digits ≠ 0 := Decimal.digits_ne_zero
      ((Binary64.shortest_covers hz).pos (Binary64.significand_ne_zero hz))
    rw [if_neg Bool.false_ne_true]
    split
    · rw [hsign]
      exact (denotes_positional hd x.negative).writes hx hz
    · rw [hsign]
      exact (denotes_scientific hd x.negative).writes hx hz

/-- Numbers without a numeral are written as words, which no reader of numbers takes. -/
theorem readNumber?_format {x : Binary64} (hx : x.isFinite = false) (behind : List Char) :
    readNumber? ((x.format floatLayout).toList ++ behind) = none := by
  unfold Binary64.format
  dsimp only
  cases hn : x.isNaN with
  | true =>
    rw [if_pos rfl]
    rfl
  | false =>
    rw [if_neg Bool.false_ne_true, if_pos (by simp [hx])]
    cases x.negative <;> rfl

end Json
end ContractMeter
