import ContractMeter.Proofs.Rounding

/-!
# ContractMeter.Proofs.Shortest

The shortest decimal of a number lies in the number's interval.

* `Binary64.candidate?_within` — what the search accepts lies between the ends.
* `Binary64.lastDigits_bounds` — what it ends with if it accepts nothing is close to the number.
* `Binary64.shortest_covers` — the shortest decimal rounds to the number.
-/

namespace ContractMeter
namespace Binary64

/-- Between two ends, which belong or do not. -/
def Within (inclusive : Bool) (low high r : ℚ) : Prop :=
  if inclusive then low ≤ r ∧ r ≤ high else low < r ∧ r < high

theorem within_of_lt {inclusive : Bool} {low high r : ℚ} (hlow : low < r) (hhigh : r < high) :
    Within inclusive low high r := by
  unfold Within
  split
  · exact ⟨hlow.le, hhigh.le⟩
  · exact ⟨hlow, hhigh⟩

section Search

variable {inclusive : Bool} {low num high den : ℕ} {point : ℤ}

theorem value_dropZeros (fuel digits : ℕ) (exponent : ℤ) :
    Decimal.value ⟨(dropZeros fuel digits exponent).1, (dropZeros fuel digits exponent).2⟩ =
      Decimal.value ⟨digits, exponent⟩ := by
  induction fuel generalizing digits exponent with
  | zero => rfl
  | succ fuel ih =>
    unfold dropZeros
    split
    · rename_i h
      have hten : digits = digits / 10 * 10 := by omega
      rw [ih, Decimal.value, Decimal.value, zpow_add_one₀ (by norm_num)]
      dsimp only
      conv_rhs => rw [hten]
      push_cast
      ring
    · rfl

/-- The comparisons of the search, with everything over the denominator. -/
theorem within_iff (hd : 0 < den) {exponent : ℤ} {n : ℕ} :
    Within inclusive (low / den) (high / den) (Decimal.value ⟨n, exponent⟩) ↔
      (if inclusive then
        low * Nat.pow 10 (-exponent).toNat ≤ n * (Nat.pow 10 exponent.toNat * den) &&
          n * (Nat.pow 10 exponent.toNat * den) ≤ high * Nat.pow 10 (-exponent).toNat
      else
        low * Nat.pow 10 (-exponent).toNat < n * (Nat.pow 10 exponent.toNat * den) &&
          n * (Nat.pow 10 exponent.toNat * den) < high * Nat.pow 10 (-exponent).toNat) = true := by
  have hd' : (0 : ℚ) < den := by exact_mod_cast hd
  have hup : (0 : ℚ) < (Nat.pow 10 (-exponent).toNat : ℕ) := by
    exact_mod_cast Nat.pow_pos (by decide)
  have hvalue : Decimal.value ⟨n, exponent⟩ * den * (Nat.pow 10 (-exponent).toNat : ℕ) =
      (n * (Nat.pow 10 exponent.toNat * den) : ℕ) := by
    rw [Decimal.value_eq_div]
    field_simp
    push_cast
    ring
  generalize Decimal.value ⟨n, exponent⟩ = r at *
  generalize n * (Nat.pow 10 exponent.toNat * den) = v at *
  generalize Nat.pow 10 (-exponent).toNat = up at *
  have hle (k : ℕ) : (k : ℚ) / den ≤ r ↔ k * up ≤ v := by
    rw [div_le_iff₀ hd', ← mul_le_mul_iff_left₀ hup, hvalue]
    exact_mod_cast Iff.rfl
  have hge (k : ℕ) : r ≤ (k : ℚ) / den ↔ v ≤ k * up := by
    rw [le_div_iff₀ hd', ← mul_le_mul_iff_left₀ hup, hvalue]
    exact_mod_cast Iff.rfl
  have hlt (k : ℕ) : (k : ℚ) / den < r ↔ k * up < v := by
    rw [← not_le, hge, not_le]
  have hgt (k : ℕ) : r < (k : ℚ) / den ↔ v < k * up := by
    rw [← not_le, hle, not_le]
  unfold Within
  cases inclusive with
  | true => simp only [if_true, Bool.and_eq_true, decide_eq_true_eq, hle, hge]
  | false => simp only [Bool.false_eq_true, if_false, Bool.and_eq_true, decide_eq_true_eq, hlt, hgt]

/-- Whichever of two is taken passed the test. -/
theorem passes_of_first {fits : ℕ → Bool} {n a b : ℕ}
    (h : (if fits a then some a else if fits b then some b else none) = some n) :
    fits n = true := by
  split at h
  · cases h
    assumption
  · split at h
    · cases h
      assumption
    · cases h

theorem candidate?_within (hd : 0 < den) {exponent : ℤ} {n : ℕ}
    (h : candidate? inclusive low num high den exponent = some n) :
    Within inclusive (low / den) (high / den) (Decimal.value ⟨n, exponent⟩) := by
  rw [within_iff hd]
  unfold candidate? at h
  extract_lets unit up below fits at h
  exact passes_of_first h

/-- What the search ends with if it accepts nothing. -/
def lastDigits (num den : ℕ) (point : ℤ) : Decimal where
  digits := num * Nat.pow 10 (18 - point).toNat / (den * Nat.pow 10 (point - 18).toNat)
  exponent := point - 18

theorem searchDigits_within (hd : 0 < den)
    (hlast : Within inclusive (low / den) (high / den) (lastDigits num den point).value) :
    ∀ fuel count, fuel + count = 18 → Within inclusive (low / den) (high / den)
      (searchDigits inclusive low num high den point fuel count).value := by
  intro fuel
  induction fuel with
  | zero =>
    intro count hcount
    rw [Nat.zero_add] at hcount
    rw [hcount]
    exact hlast
  | succ fuel ih =>
    intro count hcount
    unfold searchDigits
    split
    · rename_i digits hc
      rw [value_dropZeros]
      exact candidate?_within hd hc
    · exact ih (count + 1) (by omega)

/-- The power of ten that a positive quotient begins at. -/
theorem pow_decimalPoint_le (hn : 0 < num) (hd : 0 < den) :
    (10 : ℚ) ^ (decimalPoint num den - 1) ≤ num / den := by
  have hn' : (0 : ℚ) < num := by exact_mod_cast hn
  have hd' : (0 : ℚ) < den := by exact_mod_cast hd
  unfold decimalPoint
  split
  case isTrue hle =>
    have hq : num / den ≠ 0 := (Nat.div_pos hle hd).ne'
    have hlow := Decimal.pow_length_le hq
    have hpos := Nat.length_toDigits_pos (b := 10) (n := num / den)
    generalize (Nat.toDigits 10 (num / den)).length = k at *
    have hk : (k : ℤ) - 1 = ((k - 1 : ℕ) : ℤ) := by omega
    rw [hk, zpow_natCast, le_div_iff₀ hd']
    have := (Nat.mul_le_mul_right den hlow).trans (Nat.div_mul_le_self num den)
    exact_mod_cast this
  case isFalse hlt =>
    have hone : num ≤ den - 1 := by omega
    have hinverse : (den - 1) / num ≠ 0 := (Nat.div_pos hone hn).ne'
    dsimp only
    rw [if_neg hinverse]
    have hhigh := Decimal.lt_pow_length ((den - 1) / num)
    generalize (Nat.toDigits 10 ((den - 1) / num)).length = k at *
    have hk : (1 : ℤ) - k - 1 = -(k : ℤ) := by omega
    rw [hk, zpow_neg, zpow_natCast, le_div_iff₀ hd', inv_mul_le_iff₀ (by positivity)]
    rw [Nat.div_lt_iff_lt_mul hn] at hhigh
    have : den ≤ 10 ^ k * num := by omega
    exact_mod_cast this

/-- Seventeen places behind the first digit are less than a quarter of the last binary digit away
from the number. -/
theorem lastDigits_bounds (hn : 0 < num) (hd : 0 < den) :
    (lastDigits num den (decimalPoint num den)).value ≤ num / den ∧
      (num : ℚ) / den * (1 - 10 ^ (-17 : ℤ)) <
        (lastDigits num den (decimalPoint num den)).value := by
  have hd' : (0 : ℚ) < den := by exact_mod_cast hd
  have hpoint := pow_decimalPoint_le hn hd
  generalize decimalPoint num den = point at *
  have hunit : 0 < den * Nat.pow 10 (point - 18).toNat := Nat.mul_pos hd (Nat.pow_pos (by decide))
  have hunit' : (0 : ℚ) < (den * Nat.pow 10 (point - 18).toNat : ℕ) := by exact_mod_cast hunit
  have hgrid : (0 : ℚ) < 10 ^ (point - 18) := by positivity
  -- the quotient on the grid of the last place
  have hratio : ((num * Nat.pow 10 (18 - point).toNat : ℕ) : ℚ) /
      (den * Nat.pow 10 (point - 18).toNat : ℕ) * 10 ^ (point - 18) = num / den := by
    have hneg : (18 - point).toNat = (-(point - 18)).toNat := by omega
    rw [zpow_eq_div (by norm_num) (point - 18), hneg, Nat.pow_eq, Nat.pow_eq]
    push_cast
    field_simp
  have hlow := Nat.div_mul_le_self (num * Nat.pow 10 (18 - point).toNat)
    (den * Nat.pow 10 (point - 18).toNat)
  have hhigh := Nat.lt_div_mul_add (a := num * Nat.pow 10 (18 - point).toNat) hunit
  rw [lastDigits, Decimal.value]
  dsimp only
  generalize num * Nat.pow 10 (18 - point).toNat = a at *
  generalize den * Nat.pow 10 (point - 18).toNat = b at *
  generalize a / b = q at *
  have hlow' : (q : ℚ) ≤ a / b := by
    rw [le_div_iff₀ hunit']
    exact_mod_cast hlow
  have hhigh' : (a : ℚ) / b < q + 1 := by
    rw [div_lt_iff₀ hunit', add_mul, one_mul]
    exact_mod_cast hhigh
  have hstep : (10 : ℚ) ^ (point - 18) ≤ num / den * 10 ^ (-17 : ℤ) := by
    have hsplit : (10 : ℚ) ^ (point - 18) = 10 ^ (point - 1) * 10 ^ (-17 : ℤ) := by
      rw [← zpow_add₀ (by norm_num)]
      congr 1
      omega
    rw [hsplit]
    exact mul_le_mul_of_nonneg_right hpoint (by positivity)
  rw [← hratio] at hstep ⊢
  constructor
  · exact mul_le_mul_of_nonneg_right hlow' hgrid.le
  · have := mul_lt_mul_of_pos_right hhigh' hgrid
    linarith

end Search

variable {x : Binary64}

theorem significand_ne_zero (hz : x.isZero = false) : x.significand ≠ 0 := by
  intro hm
  rw [significand_eq] at hm
  split at hm
  case isTrue he => simp [isZero, he, hm] at hz
  case isFalse => omega

/-- A number's interval over the denominator of the search. -/
theorem scale_over (x : Binary64) (k : ℕ) :
    ((k * Nat.pow 2 x.scale.toNat : ℕ) : ℚ) / (4 * Nat.pow 2 (-x.scale).toNat : ℕ) =
      k * 2 ^ x.scale / 4 := by
  rw [zpow_eq_div two_ne_zero x.scale, Nat.pow_eq, Nat.pow_eq]
  push_cast
  ring

theorem covers_of_within {r : ℚ}
    (h : Within (x.significand % 2 = 0) (x.interval.1 * 2 ^ x.scale / 4)
      (x.interval.2 * 2 ^ x.scale / 4) r) : x.Covers r := by
  unfold Within at h
  split at h
  case isTrue he =>
    refine ⟨by linarith [h.1], by linarith [h.2], fun ho => ?_⟩
    rw [decide_eq_true_eq] at he
    omega
  case isFalse =>
    exact ⟨by linarith [h.1], by linarith [h.2], fun _ => ⟨by linarith [h.1], by linarith [h.2]⟩⟩

/-- **The shortest decimal of a number lies in its interval.** -/
theorem shortest_covers (hz : x.isZero = false) : x.Covers x.shortest.value := by
  have hm := significand_ne_zero hz
  have hone : (1 : ℚ) ≤ x.significand := by exact_mod_cast Nat.one_le_iff_ne_zero.mpr hm
  have hlt : (x.significand : ℚ) ≤ 2 ^ 53 := by exact_mod_cast (significand_lt x).le
  have hu : (0 : ℚ) < 2 ^ x.scale := by positivity
  have hup : 0 < Nat.pow 2 x.scale.toNat := Nat.pow_pos two_pos
  have hden : 0 < 4 * Nat.pow 2 (-x.scale).toNat := Nat.mul_pos (by decide) (Nat.pow_pos two_pos)
  have hnum : 0 < 4 * x.significand * Nat.pow 2 x.scale.toNat :=
    Nat.mul_pos (Nat.mul_pos (by decide) (Nat.pos_of_ne_zero hm)) hup
  obtain ⟨hle, hgt⟩ := lastDigits_bounds hnum hden
  obtain ⟨hlow, hhigh⟩ := interval_low hm
  apply covers_of_within
  rw [scale_over] at hle hgt
  rw [← scale_over, ← scale_over]
  refine searchDigits_within hden ?_ 17 1 rfl
  rw [scale_over, scale_over, hlow, hhigh]
  push_cast at hle hgt
  refine within_of_lt ?_ ?_
  · -- what is cut off is below the quarter between the number and the lower end
    have hcut : (x.significand : ℚ) * 10 ^ (-17 : ℤ) < 1 / 4 := by
      have h17 : (10 : ℚ) ^ (-17 : ℤ) < 1 / 2 ^ 55 := by norm_num
      nlinarith
    have hcut' := mul_lt_mul_of_pos_right hcut hu
    refine lt_of_le_of_lt ?_ hgt
    split <;> nlinarith
  · nlinarith

end Binary64
end ContractMeter
