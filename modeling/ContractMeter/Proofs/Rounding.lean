import Mathlib.Algebra.Order.Field.Power
import Mathlib.Data.Rat.Cast.Order
import Mathlib.Tactic.FieldSimp
import Mathlib.Tactic.Linarith
import Mathlib.Tactic.NormNum
import Mathlib.Tactic.Positivity
import Mathlib.Tactic.Ring
import ContractMeter.Number.Shortest

/-!
# ContractMeter.Proofs.Rounding

Which quotients round to a number.

* `Binary64.Covers` — a number's interval: its quotients are nearer to it than to its neighbours,
  and the ends belong to it if its significand is even.
* `Binary64.ofRatio_of_covers` — every quotient in the interval rounds to the number.
* `Decimal.toBinary64_of_covers` — and so does every decimal in it.
-/

namespace ContractMeter

/-- A power with an integer exponent as a quotient of two with natural ones. -/
theorem zpow_eq_div {b : ℚ} (hb : b ≠ 0) (t : ℤ) : b ^ t = b ^ t.toNat / b ^ (-t).toNat := by
  rw [← zpow_natCast, ← zpow_natCast, ← zpow_sub₀ hb, Int.toNat_sub_toNat_neg]

namespace Binary64

variable {num den : ℕ} {t : ℤ}

theorem scaled_eq (num den : ℕ) (t : ℤ) :
    ((scaled num den t).1 : ℚ) / (scaled num den t).2 = num / den / 2 ^ t := by
  have h₁ : ((Nat.pow 2 (-t).toNat : ℕ) : ℚ) = 2 ^ (-t).toNat := by exact_mod_cast rfl
  have h₂ : ((Nat.pow 2 t.toNat : ℕ) : ℚ) = 2 ^ t.toNat := by exact_mod_cast rfl
  rw [scaled, zpow_eq_div two_ne_zero t, Nat.cast_mul, Nat.cast_mul, h₁, h₂]
  field_simp

theorem scaled_den_pos (num : ℕ) (t : ℤ) (hd : den ≠ 0) : 0 < (scaled num den t).2 :=
  Nat.mul_pos (Nat.pos_of_ne_zero hd) (Nat.pow_pos two_pos)

theorem divRoundEven_eq {q : ℕ} (hlow : 2 * (q * den) ≤ 2 * num + den)
    (hhigh : 2 * num ≤ 2 * (q * den) + den)
    (hodd : q % 2 = 1 → 2 * (q * den) < 2 * num + den ∧ 2 * num < 2 * (q * den) + den)
    (hd : 0 < den) : divRoundEven num den = q := by
  have hdiv : num / den * den + num % den = num := Nat.div_add_mod' num den
  have hmod : num % den < den := Nat.mod_lt num hd
  unfold divRoundEven
  generalize num / den = k at hdiv ⊢
  generalize num % den = rem at hdiv hmod ⊢
  have hk : q = k ∨ q = k + 1 := by
    have h₁ : ¬ q + 1 ≤ k := fun hle => by
      have := Nat.mul_le_mul_right den hle
      rw [Nat.add_mul] at this
      omega
    have h₂ : ¬ k + 2 ≤ q := fun hle => by
      have := Nat.mul_le_mul_right den hle
      rw [Nat.add_mul] at this
      omega
    omega
  rcases hk with rfl | rfl
  · dsimp only
    split
    · rfl
    · split <;> omega
  · rw [Nat.add_mul] at hlow hhigh hodd
    dsimp only
    split
    · omega
    · split <;> omega

/-- A quotient rounds to the integer that is at most one half away, if only even ones are exactly
one half away. -/
theorem divRoundEven_of_near (hd : 0 < den) {q : ℕ} (hlow : (q : ℚ) - 1 / 2 ≤ num / den)
    (hhigh : (num : ℚ) / den ≤ q + 1 / 2)
    (hodd : q % 2 = 1 → (q : ℚ) - 1 / 2 < num / den ∧ (num : ℚ) / den < q + 1 / 2) :
    divRoundEven num den = q := by
  have hd' : (0 : ℚ) < den := by exact_mod_cast hd
  rw [le_div_iff₀ hd'] at hlow
  rw [div_le_iff₀ hd'] at hhigh
  rw [lt_div_iff₀ hd', div_lt_iff₀ hd'] at hodd
  refine divRoundEven_eq ?_ ?_ (fun hq => ⟨?_, ?_⟩) hd
  · have : (2 : ℚ) * (q * den) ≤ 2 * num + den := by linarith
    exact_mod_cast this
  · have : (2 : ℚ) * num ≤ 2 * (q * den) + den := by linarith
    exact_mod_cast this
  · have : (2 : ℚ) * (q * den) < 2 * num + den := by linarith [(hodd hq).1]
    exact_mod_cast this
  · have : (2 : ℚ) * num < 2 * (q * den) + den := by linarith [(hodd hq).2]
    exact_mod_cast this

/-- A number has 53 binary digits before the point at a scale. -/
def InBinade (r : ℚ) (t : ℤ) : Prop :=
  2 ^ 52 * 2 ^ t ≤ r ∧ r < 2 ^ 53 * 2 ^ t

/-- The lengths of numerator and denominator give the binade but for one. -/
theorem log2_bounds (hn : num ≠ 0) (hd : den ≠ 0) :
    let guess : ℤ := num.log2 - den.log2 - 52
    2 ^ 51 * 2 ^ guess < (num : ℚ) / den ∧ (num : ℚ) / den < 2 ^ 53 * 2 ^ guess := by
  intro guess
  have hd' : (0 : ℚ) < den := by exact_mod_cast Nat.pos_of_ne_zero hd
  have hn₁ : (2 : ℚ) ^ num.log2 ≤ num := by exact_mod_cast Nat.log2_self_le hn
  have hn₂ : (num : ℚ) < 2 * 2 ^ num.log2 := by
    rw [← pow_succ']
    exact_mod_cast Nat.lt_log2_self
  have hd₁ : (2 : ℚ) ^ den.log2 ≤ den := by exact_mod_cast Nat.log2_self_le hd
  have hd₂ : (den : ℚ) < 2 * 2 ^ den.log2 := by
    rw [← pow_succ']
    exact_mod_cast Nat.lt_log2_self
  have hguess : (2 : ℚ) ^ guess = 2 ^ num.log2 / 2 ^ den.log2 / 2 ^ 52 := by
    rw [zpow_sub₀ two_ne_zero, zpow_sub₀ two_ne_zero, zpow_natCast, zpow_natCast]
    rfl
  have ha : (0 : ℚ) < 2 ^ num.log2 := by positivity
  have hb : (0 : ℚ) < 2 ^ den.log2 := by positivity
  rw [hguess]
  generalize (2 : ℚ) ^ num.log2 = a at *
  generalize (2 : ℚ) ^ den.log2 = b at *
  constructor
  · rw [lt_div_iff₀ hd']
    calc 2 ^ 51 * (a / b / 2 ^ 52) * den < 2 ^ 51 * (a / b / 2 ^ 52) * (2 * b) :=
          mul_lt_mul_of_pos_left hd₂ (by positivity)
      _ = a := by field_simp
      _ ≤ num := hn₁
  · rw [div_lt_iff₀ hd']
    calc (num : ℚ) < 2 * a := hn₂
      _ = 2 ^ 53 * (a / b / 2 ^ 52) * b := by field_simp
      _ ≤ 2 ^ 53 * (a / b / 2 ^ 52) * den := mul_le_mul_of_nonneg_left hd₁ (by positivity)

/-- The scale of a quotient is that of its binade, or the least there is. -/
theorem scaleOf_eq (hn : num ≠ 0) (hd : den ≠ 0) :
    ∃ t, InBinade ((num : ℚ) / den) t ∧ scaleOf num den = max (-1074) t := by
  obtain ⟨hlow, hhigh⟩ := log2_bounds hn hd
  unfold scaleOf
  dsimp only at *
  generalize (num.log2 : ℤ) - den.log2 - 52 = guess at *
  have hpos : (0 : ℚ) < 2 ^ guess := by positivity
  have htest : (scaled num den guess).1 / (scaled num den guess).2 < Nat.pow 2 52 ↔
      (num : ℚ) / den < 2 ^ 52 * 2 ^ guess := by
    have hs := scaled_den_pos num guess hd
    have hs' : (0 : ℚ) < (scaled num den guess).2 := by exact_mod_cast hs
    rw [Nat.div_lt_iff_lt_mul hs, ← div_lt_iff₀ hpos, ← scaled_eq, div_lt_iff₀ hs', Nat.pow_eq]
    exact_mod_cast Iff.rfl
  by_cases h : (num : ℚ) / den < 2 ^ 52 * 2 ^ guess
  · refine ⟨guess - 1, ⟨?_, ?_⟩, by rw [if_pos (htest.mpr h)]⟩
    · rw [zpow_sub_one₀ two_ne_zero]
      linarith
    · rw [zpow_sub_one₀ two_ne_zero]
      linarith
  · exact ⟨guess, ⟨not_lt.mp h, hhigh⟩, by rw [if_neg (mt htest.mp h)]⟩

/-! ## Numbers and their fields -/

variable {x : Binary64}

theorem significand_eq (x : Binary64) : x.significand =
    if x.exponent.val = 0 then x.fraction.val else 2 ^ 52 + x.fraction.val := rfl

theorem fraction_lt (x : Binary64) : x.fraction.val < 2 ^ 52 := x.fraction.isLt

theorem significand_lt (x : Binary64) : x.significand < 2 ^ 53 := by
  have hf := fraction_lt x
  rw [significand_eq]
  split <;> omega

theorem le_scale (x : Binary64) : -1074 ≤ x.scale := by
  unfold scale
  omega

theorem one_lt_exponent (h : -1074 < x.scale) : 1 < x.exponent.val := by
  unfold scale at h
  omega

/-- Scale and significand of a finite number make up its fields. -/
theorem fields_eq (x : Binary64) :
    (x.scale + 1074).toNat * 2 ^ 52 + x.significand = x.exponent.val * 2 ^ 52 + x.fraction.val := by
  rw [significand_eq, scale]
  split <;> omega

theorem ofFields_eq (hx : x.isFinite = true) :
    ofFields x.negative ((x.scale + 1074).toNat * Nat.pow 2 52 + x.significand) = x := by
  have he : x.exponent.val < 2047 := of_decide_eq_true hx
  have hf := fraction_lt x
  have hdiv : (x.exponent.val * 2 ^ 52 + x.fraction.val) / 2 ^ 52 = x.exponent.val := by omega
  have hmod : (x.exponent.val * 2 ^ 52 + x.fraction.val) % 2 ^ 52 = x.fraction.val := by omega
  have hlt : x.exponent.val * 2 ^ 52 + x.fraction.val < 2047 * 2 ^ 52 := by omega
  have hexponent : Fin.ofNat 2048 x.exponent.val = x.exponent :=
    Fin.ext (Nat.mod_eq_of_lt x.exponent.isLt)
  have hfraction : Fin.ofNat (Nat.pow 2 52) x.fraction.val = x.fraction :=
    Fin.ext (Nat.mod_eq_of_lt x.fraction.isLt)
  show ofFields x.negative ((x.scale + 1074).toNat * 2 ^ 52 + x.significand) = x
  rw [fields_eq, ofFields]
  show (if x.exponent.val * 2 ^ 52 + x.fraction.val < 2047 * 2 ^ 52 then
    ⟨x.negative, Fin.ofNat 2048 ((x.exponent.val * 2 ^ 52 + x.fraction.val) / 2 ^ 52),
      Fin.ofNat (Nat.pow 2 52) ((x.exponent.val * 2 ^ 52 + x.fraction.val) % 2 ^ 52)⟩
    else infinity x.negative) = x
  rw [if_pos hlt, hdiv, hmod, hexponent, hfraction]

/-! ## Intervals -/

/-- A quotient lies in the interval of a number; the ends are in it if the significand is even. -/
structure Covers (x : Binary64) (r : ℚ) : Prop where
  low : x.interval.1 * 2 ^ x.scale ≤ 4 * r
  high : 4 * r ≤ x.interval.2 * 2 ^ x.scale
  odd : x.significand % 2 = 1 →
    x.interval.1 * 2 ^ x.scale < 4 * r ∧ 4 * r < x.interval.2 * 2 ^ x.scale

/-- The lower neighbour of a power of two is half as far away as the upper one. -/
def IsNarrow (x : Binary64) : Prop :=
  x.fraction.val = 0 ∧ 1 < x.exponent.val

instance (x : Binary64) : Decidable x.IsNarrow :=
  inferInstanceAs (Decidable (_ ∧ _))

theorem interval_of_isNarrow (h : x.IsNarrow) :
    x.interval = (4 * x.significand - 1, 4 * x.significand + 2) :=
  if_pos h

theorem interval_of_not_isNarrow (h : ¬ x.IsNarrow) :
    x.interval = (4 * x.significand - 2, 4 * x.significand + 2) :=
  if_neg h

theorem significand_of_isNarrow (h : x.IsNarrow) : x.significand = 2 ^ 52 := by
  obtain ⟨hf, he⟩ := h
  rw [significand_eq, if_neg (by omega), hf, Nat.add_zero]

section Covers

variable {r : ℚ} (h : x.Covers r) (hm : x.significand ≠ 0)

include hm

/-- The lower end is one half or one quarter below. -/
theorem interval_low : (x.interval.1 : ℚ) = 4 * x.significand - (if x.IsNarrow then 1 else 2) ∧
    (x.interval.2 : ℚ) = 4 * x.significand + 2 := by
  by_cases hw : x.IsNarrow
  · rw [interval_of_isNarrow hw, if_pos hw, Nat.cast_sub (by omega)]
    push_cast
    exact ⟨rfl, rfl⟩
  · rw [interval_of_not_isNarrow hw, if_neg hw, Nat.cast_sub (by omega)]
    push_cast
    exact ⟨rfl, rfl⟩

include h

theorem Covers.near : ((x.significand : ℚ) - 1 / 2) * 2 ^ x.scale ≤ r ∧
    r ≤ (x.significand + 1 / 2) * 2 ^ x.scale := by
  have hu : (0 : ℚ) < 2 ^ x.scale := by positivity
  obtain ⟨h₁, h₂⟩ := interval_low hm
  have hlow := h.low
  have hhigh := h.high
  rw [h₁] at hlow
  rw [h₂] at hhigh
  constructor
  · split at hlow <;> linarith
  · linarith

theorem Covers.pos : 0 < r := by
  have hone : (1 : ℚ) ≤ x.significand := by exact_mod_cast Nat.one_le_iff_ne_zero.mpr hm
  have hu : (0 : ℚ) < 2 ^ x.scale := by positivity
  exact lt_of_lt_of_le (mul_pos (by linarith) hu) (h.near hm).1

theorem Covers.nearer_of_odd (ho : x.significand % 2 = 1) :
    ((x.significand : ℚ) - 1 / 2) * 2 ^ x.scale < r ∧
      r < (x.significand + 1 / 2) * 2 ^ x.scale := by
  have hu : (0 : ℚ) < 2 ^ x.scale := by positivity
  obtain ⟨h₁, h₂⟩ := interval_low hm
  obtain ⟨hlow, hhigh⟩ := h.odd ho
  rw [h₁] at hlow
  rw [h₂] at hhigh
  constructor
  · split at hlow <;> linarith
  · linarith

theorem Covers.near_of_isNarrow (hw : x.IsNarrow) :
    ((x.significand : ℚ) - 1 / 4) * 2 ^ x.scale ≤ r := by
  have hlow := h.low
  rw [(interval_low hm).1, if_pos hw] at hlow
  linarith

/-- The binade of a quotient in the interval: that of the number, or the one below where a power of
two is rounded up to. -/
theorem Covers.scale_cases {t : ℤ} (ht : InBinade r t) : max (-1074) t = x.scale ∨
    max (-1074) t = x.scale - 1 ∧ x.IsNarrow ∧ r < 2 ^ 52 * 2 ^ x.scale := by
  obtain ⟨htlow, hthigh⟩ := ht
  obtain ⟨hlow, hhigh⟩ := h.near hm
  have hs := le_scale x
  have hlt : (x.significand : ℚ) + 1 ≤ 2 ^ 53 := by exact_mod_cast significand_lt x
  have hu : (0 : ℚ) < 2 ^ x.scale := by positivity
  have htop : t < x.scale + 1 := by
    have : (2 : ℚ) ^ t < 2 ^ (x.scale + 1) := by
      rw [zpow_add_one₀ two_ne_zero]
      nlinarith
    exact (zpow_lt_zpow_iff_right₀ one_lt_two).mp this
  by_cases hsub : x.scale = -1074
  · exact .inl (by omega)
  have he := one_lt_exponent (x := x) (by omega)
  by_cases hw : x.IsNarrow
  · have hbottom : x.scale < t + 2 := by
      have hnear := h.near_of_isNarrow hm hw
      rw [significand_of_isNarrow hw] at hnear
      push_cast at hnear
      have : (2 : ℚ) ^ x.scale < 2 ^ (t + 2) := by
        rw [zpow_add₀ two_ne_zero]
        norm_num at *
        linarith
      exact (zpow_lt_zpow_iff_right₀ one_lt_two).mp this
    by_cases heq : t = x.scale
    · exact .inl (by omega)
    · refine .inr ⟨by omega, hw, ?_⟩
      have hts : t = x.scale - 1 := by omega
      rw [hts, zpow_sub_one₀ two_ne_zero] at hthigh
      linarith
  · have hbottom : x.scale < t + 1 := by
      have hf : x.fraction.val ≠ 0 := fun hf => hw ⟨hf, he⟩
      have hge : (2 : ℚ) ^ 52 + 1 ≤ x.significand := by
        rw [significand_eq, if_neg (by omega)]
        exact_mod_cast Nat.add_le_add_left (Nat.pos_of_ne_zero hf) _
      have : (2 : ℚ) ^ x.scale < 2 ^ (t + 1) := by
        rw [zpow_add_one₀ two_ne_zero]
        nlinarith
      exact (zpow_lt_zpow_iff_right₀ one_lt_two).mp this
    exact .inl (by omega)

end Covers

section Rounding

variable (h : x.Covers (num / den)) (hm : x.significand ≠ 0) (hd : den ≠ 0)

include h hm hd

theorem Covers.round_scaled : divRoundEven (scaled num den x.scale).1 (scaled num den x.scale).2 =
    x.significand := by
  have hu : (0 : ℚ) < 2 ^ x.scale := by positivity
  have hs := scaled_eq num den x.scale
  obtain ⟨hlow, hhigh⟩ := h.near hm
  refine divRoundEven_of_near (scaled_den_pos num _ hd) ?_ ?_ fun ho => ?_
  · rwa [hs, le_div_iff₀ hu]
  · rwa [hs, div_le_iff₀ hu]
  · rw [hs, lt_div_iff₀ hu, div_lt_iff₀ hu]
    exact h.nearer_of_odd hm ho

/-- In the binade below a power of two rounding carries. -/
theorem Covers.round_carry (hw : x.IsNarrow) (hlt : (num : ℚ) / den < 2 ^ 52 * 2 ^ x.scale) :
    divRoundEven (scaled num den (x.scale - 1)).1 (scaled num den (x.scale - 1)).2 = 2 ^ 53 := by
  have hu : (0 : ℚ) < 2 ^ x.scale := by positivity
  have hs := scaled_eq num den (x.scale - 1)
  have hnear := h.near_of_isNarrow hm hw
  rw [significand_of_isNarrow hw] at hnear
  push_cast at hnear
  refine divRoundEven_of_near (scaled_den_pos num _ hd) ?_ ?_ fun ho => absurd ho (by decide)
  · rw [hs, zpow_sub_one₀ two_ne_zero, le_div_iff₀ (by positivity)]
    push_cast
    linarith
  · rw [hs, zpow_sub_one₀ two_ne_zero, div_le_iff₀ (by positivity)]
    push_cast
    linarith

end Rounding

/-- After a carry the fields are those of the power of two. -/
theorem fields_of_carry (hw : x.IsNarrow) (h : -1074 < x.scale) :
    (x.scale - 1 + 1074).toNat * Nat.pow 2 52 + 2 ^ 53 =
      (x.scale + 1074).toNat * Nat.pow 2 52 + x.significand := by
  rw [significand_of_isNarrow hw, Nat.pow_eq]
  omega

/-- **Nearest rounding.** Every quotient in the interval of a number rounds to it. -/
theorem ofRatio_of_covers (hx : x.isFinite = true) (hm : x.significand ≠ 0) (hd : den ≠ 0)
    (h : x.Covers (num / den)) : ofRatio x.negative num den = x := by
  have hn : num ≠ 0 := by
    rintro rfl
    have hpos := h.pos hm
    rw [Nat.cast_zero, zero_div] at hpos
    exact lt_irrefl _ hpos
  obtain ⟨t, ht, hscale⟩ := scaleOf_eq hn hd
  unfold ofRatio
  rw [if_neg hn]
  dsimp only
  rw [hscale]
  rcases h.scale_cases hm ht with he | ⟨he, hw, hlt⟩
  · rw [he, h.round_scaled hm hd, ofFields_eq hx]
  · rw [he, h.round_carry hm hd hw hlt, fields_of_carry hw (by omega), ofFields_eq hx]

end Binary64

/-! ## Decimals -/

namespace Decimal

variable {d : Decimal} {x : Binary64}

/-- The number a decimal stands for. -/
def value (d : Decimal) : ℚ := d.digits * 10 ^ d.exponent

theorem digits_ne_zero (h : 0 < d.value) : d.digits ≠ 0 := by
  intro hz
  rw [value, hz, Nat.cast_zero, zero_mul] at h
  exact lt_irrefl _ h

theorem value_eq_div (d : Decimal) : d.value =
    (d.digits * Nat.pow 10 d.exponent.toNat : ℕ) / (Nat.pow 10 (-d.exponent).toNat : ℕ) := by
  rw [value, zpow_eq_div (by norm_num) d.exponent, Nat.pow_eq, Nat.pow_eq]
  push_cast
  ring

theorem lt_pow_length (n : ℕ) : n < 10 ^ (Nat.toDigits 10 n).length :=
  (Nat.length_toDigits_le_iff (by decide) Nat.length_toDigits_pos).mp (Nat.le_refl _)

theorem pow_length_le {n : ℕ} (hn : n ≠ 0) : 10 ^ ((Nat.toDigits 10 n).length - 1) ≤ n := by
  have hpos := Nat.length_toDigits_pos (b := 10) (n := n)
  by_cases h : (Nat.toDigits 10 n).length = 1
  · rw [h]
    exact Nat.pos_of_ne_zero hn
  · refine Nat.not_lt.mp fun hlt => ?_
    have := (Nat.length_toDigits_le_iff (by decide) (by omega)).mpr hlt
    omega

/-- The count of digits before the point bounds a decimal. -/
theorem value_bounds (hd : d.digits ≠ 0) :
    (10 : ℚ) ^ (d.exponent + (Nat.toDigits 10 d.digits).length - 1) ≤ d.value ∧
      d.value < 10 ^ (d.exponent + (Nat.toDigits 10 d.digits).length) := by
  have hpos := Nat.length_toDigits_pos (b := 10) (n := d.digits)
  have hlow := pow_length_le hd
  have hhigh := lt_pow_length d.digits
  generalize (Nat.toDigits 10 d.digits).length = k at *
  have hlow' : (10 : ℚ) ^ (k - 1) ≤ d.digits := by exact_mod_cast hlow
  have hhigh' : (d.digits : ℚ) < 10 ^ k := by exact_mod_cast hhigh
  have hu : (0 : ℚ) < 10 ^ d.exponent := by positivity
  have hk : d.exponent + k - 1 = d.exponent + ((k - 1 : ℕ) : ℤ) := by omega
  rw [hk, zpow_add₀ (by norm_num), zpow_add₀ (by norm_num), zpow_natCast, zpow_natCast, value,
    mul_comm _ ((10 : ℚ) ^ d.exponent)]
  exact ⟨mul_le_mul_of_nonneg_left hlow' hu.le, mul_lt_mul_of_pos_left hhigh' hu⟩

/-- The interval of a number lies in the range of exponents that a decimal is not settled by. -/
theorem range_of_covers {r : ℚ} (hx : x.isFinite = true) (hm : x.significand ≠ 0)
    (h : x.Covers r) : (10 : ℚ) ^ (-400 : ℤ) < r ∧ r < 10 ^ (400 : ℤ) := by
  obtain ⟨hlow, hhigh⟩ := h.near hm
  have hone : (1 : ℚ) ≤ x.significand := by exact_mod_cast Nat.one_le_iff_ne_zero.mpr hm
  have hlt : (x.significand : ℚ) + 1 ≤ 2 ^ 53 := by exact_mod_cast Binary64.significand_lt x
  have hmin : (2 : ℚ) ^ (-1074 : ℤ) ≤ 2 ^ x.scale :=
    zpow_le_zpow_right₀ one_le_two (Binary64.le_scale x)
  have hmax : (2 : ℚ) ^ x.scale ≤ 2 ^ (971 : ℤ) := by
    refine zpow_le_zpow_right₀ one_le_two ?_
    have he : x.exponent.val < 2047 := of_decide_eq_true hx
    unfold Binary64.scale
    omega
  have hten : (2 : ℚ) ^ (1200 : ℤ) < 10 ^ (400 : ℤ) := by
    have h8 : ((2 : ℚ) ^ 3) ^ 400 < 10 ^ 400 :=
      pow_lt_pow_left₀ (by norm_num) (by norm_num) (by norm_num)
    rw [← pow_mul, ← zpow_natCast, ← zpow_natCast] at h8
    exact h8
  constructor
  · have htiny : (10 : ℚ) ^ (-400 : ℤ) < 2 ^ (-1075 : ℤ) :=
      calc (10 : ℚ) ^ (-400 : ℤ) = (10 ^ (400 : ℤ))⁻¹ := zpow_neg ..
        _ < (2 ^ (1200 : ℤ))⁻¹ := inv_strictAnti₀ (by positivity) hten
        _ = 2 ^ (-1200 : ℤ) := (zpow_neg ..).symm
        _ ≤ 2 ^ (-1075 : ℤ) := zpow_le_zpow_right₀ one_le_two (by decide)
    have hhalf : (2 : ℚ) ^ (-1074 : ℤ) = 2 ^ (-1075 : ℤ) * 2 := by
      rw [← zpow_add_one₀ two_ne_zero]
      rfl
    nlinarith
  · have hhuge : (2 : ℚ) ^ (53 : ℤ) * 2 ^ (971 : ℤ) < 10 ^ (400 : ℤ) := by
      rw [← zpow_add₀ two_ne_zero]
      exact (zpow_le_zpow_right₀ one_le_two (by decide)).trans_lt hten
    have h53 : (2 : ℚ) ^ (53 : ℤ) = 2 ^ 53 := by exact_mod_cast rfl
    have hpos : (0 : ℚ) < 2 ^ x.scale := by positivity
    rw [h53] at hhuge
    calc r ≤ (x.significand + 1 / 2) * 2 ^ x.scale := hhigh
      _ ≤ 2 ^ 53 * 2 ^ x.scale := mul_le_mul_of_nonneg_right (by linarith) hpos.le
      _ ≤ 2 ^ 53 * 2 ^ (971 : ℤ) := mul_le_mul_of_nonneg_left hmax (by positivity)
      _ < 10 ^ (400 : ℤ) := hhuge

/-- Every decimal in the interval of a number reads as it. -/
theorem toBinary64_of_covers (hx : x.isFinite = true) (hm : x.significand ≠ 0)
    (h : x.Covers d.value) : d.toBinary64 x.negative = x := by
  obtain ⟨hlow, hhigh⟩ := range_of_covers hx hm h
  have hd := digits_ne_zero (h.pos hm)
  obtain ⟨hlow', hhigh'⟩ := value_bounds hd
  have hten : (1 : ℚ) < 10 := by norm_num
  have htop := (zpow_lt_zpow_iff_right₀ hten).mp (hlow.trans hhigh')
  have hbottom := (zpow_lt_zpow_iff_right₀ hten).mp (hlow'.trans_lt hhigh)
  unfold toBinary64
  dsimp only
  rw [if_neg (by simp only [hd, false_or]; omega), if_neg (by omega)]
  refine Binary64.ofRatio_of_covers hx hm (Nat.pow_pos (by decide)).ne' ?_
  rwa [← value_eq_div]

end Decimal
end ContractMeter
