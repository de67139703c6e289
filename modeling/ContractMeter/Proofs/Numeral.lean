import Mathlib.Algebra.Ring.Nat
import ContractMeter.Number.Decimal

/-!
# ContractMeter.Proofs.Numeral

Decimal digits read back.

* `Decimal.ofDigits_toDigits` — the digits of a number stand for it.
* `Decimal.splitDigits_append` — digits end where something else follows.
* `Text.readInt?` — an integer of any length.
-/

namespace ContractMeter

namespace Decimal

theorem ofDigits_eq (cs : List Char) : ofDigits cs = Nat.ofDigitChars 10 cs 0 := rfl

@[simp]
theorem ofDigits_toDigits (n : Nat) : ofDigits (Nat.toDigits 10 n) = n := by
  rw [ofDigits_eq, Nat.ofDigitChars_ten_toDigits]

theorem isDigit_toDigits (n : Nat) : ∀ c ∈ Nat.toDigits 10 n, c.isDigit = true := fun _ hc =>
  Nat.isDigit_of_mem_toDigits (by decide) (by decide) hc

theorem ofDigits_append (front back : List Char) :
    ofDigits (front ++ back) = 10 ^ back.length * ofDigits front + ofDigits back := by
  rw [ofDigits_eq, ofDigits_eq, ofDigits_eq, Nat.ofDigitChars_append,
    Nat.ofDigitChars_eq_ofDigitChars_zero]

theorem ofDigits_zeros (k : Nat) : ofDigits (List.replicate k '0') = 0 := by
  rw [ofDigits_eq, Nat.ofDigitChars_replicate_zero, Nat.mul_zero]

/-- Only zero begins with a zero. -/
theorem toDigits_head {n : Nat} (hn : n ≠ 0) :
    ∃ d rest, Nat.toDigits 10 n = d :: rest ∧ d ≠ '0' := by
  induction n using Nat.strongRecOn with
  | ind n ih =>
    by_cases h : n < 10
    · have hall : ∀ n < 10, n ≠ 0 → Nat.digitChar n ≠ '0' := by decide
      exact ⟨_, [], Nat.toDigits_of_lt_base h, hall n h hn⟩
    · obtain ⟨d, rest, he, hd⟩ := ih (n / 10) (by omega) (by omega)
      refine ⟨d, rest ++ [Nat.digitChar (n % 10)], ?_, hd⟩
      rw [Nat.toDigits_of_base_le (by decide) (Nat.not_lt.mp h), he, List.cons_append]

/-- What stands behind a run of digits. -/
def EndsDigits (cs : List Char) : Prop :=
  ∀ c ∈ cs.head?, c.isDigit = false

theorem splitDigits_append {ds rest : List Char} (hd : ∀ c ∈ ds, c.isDigit = true)
    (hr : EndsDigits rest) : splitDigits (ds ++ rest) = (ds, rest) := by
  have hrest : rest.takeWhile Char.isDigit = [] ∧ rest.dropWhile Char.isDigit = rest := by
    cases rest with
    | nil => exact ⟨rfl, rfl⟩
    | cons c rest =>
      have hc : ¬ c.isDigit = true := by simp [hr c rfl]
      exact ⟨List.takeWhile_cons_of_neg hc, List.dropWhile_cons_of_neg hc⟩
  rw [splitDigits, List.takeWhile_append_of_pos hd, List.dropWhile_append_of_pos hd, hrest.1,
    hrest.2, List.append_nil]

end Decimal

namespace Text

/-- The number that a list of digits alone stands for. -/
def readNat? (cs : List Char) : Option Nat :=
  if !cs.isEmpty && cs.all Char.isDigit then some (Decimal.ofDigits cs) else none

/-- Reads a sign or none and digits. -/
def readInt? : List Char → Option Int
  | '-' :: cs => (readNat? cs).map fun n : Nat => -(n : Int)
  | cs => (readNat? cs).map Int.ofNat

theorem readNat?_toDigits (n : Nat) : readNat? (Nat.toDigits 10 n) = some n := by
  have hne : (Nat.toDigits 10 n).isEmpty = false := by simp [Nat.toDigits_ne_nil]
  have hall : (Nat.toDigits 10 n).all Char.isDigit = true :=
    List.all_eq_true.mpr (Decimal.isDigit_toDigits n)
  rw [readNat?, hne, hall, Decimal.ofDigits_toDigits]
  rfl

/-- The digits of an integer behind its sign. -/
def signed (n : Int) : List Char :=
  if n < 0 then '-' :: Nat.toDigits 10 n.natAbs else Nat.toDigits 10 n.natAbs

theorem toList_toString (n : Int) : (toString n).toList = signed n := by
  unfold signed
  cases n with
  | ofNat k =>
    rw [if_neg (by simp)]
    exact Nat.toList_repr
  | negSucc k =>
    rw [if_pos (Int.negSucc_lt_zero k)]
    show ("-" ++ (k + 1).repr).toList = _
    rw [String.toList_append, Nat.toList_repr]
    rfl

theorem readInt?_signed (n : Int) : readInt? (signed n) = some n := by
  unfold signed
  split
  case isTrue hn =>
    rw [readInt?, readNat?_toDigits, Option.map_some]
    exact congrArg some (by omega)
  case isFalse hn =>
    have hne : ∀ cs, Nat.toDigits 10 n.natAbs ≠ '-' :: cs := by
      intro cs he
      have hd := Decimal.isDigit_toDigits n.natAbs '-' (he ▸ List.mem_cons_self ..)
      cases hd
    rw [readInt?.eq_2 _ hne, readNat?_toDigits, Option.map_some]
    exact congrArg some (Int.natAbs_of_nonneg (Int.not_lt.mp hn))

theorem mem_signed {n : Int} {c : Char} (h : c ∈ signed n) : c = '-' ∨ c.isDigit = true := by
  unfold signed at h
  split at h
  · rcases List.mem_cons.mp h with h | h
    · exact .inl h
    · exact .inr (Decimal.isDigit_toDigits _ _ h)
  · exact .inr (Decimal.isDigit_toDigits _ _ h)

end Text
end ContractMeter
