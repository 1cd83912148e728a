import ChartNormal.Json.Numeral
import ChartNormal.Json.Record
import ChartNormal.Number.Shortest
import Mathlib.Algebra.Order.Field.Power
import Mathlib.Tactic.FieldSimp
import Mathlib.Tactic.Linarith
import Mathlib.Tactic.NormNum
import Mathlib.Tactic.Positivity
import Mathlib.Tactic.Ring

/-!
# Rounding to double precision

`Double.Around x q` says that `q` lies in the rounding interval of `x`: between the halfway points to its neighbours, and
on one of them where the significand is even. No number of double precision is then nearer to `q` than `x` is
(`Around.abs_sub_le_abs_sub`), and `round?` gives `x` exactly for the fractions around it (`round?_eq_some_iff`). All
numbers that are read from a document are of double precision (`Numeral.inRange_of_value?`).
-/

namespace ChartNormal

namespace Double

/-- The number without its sign. -/
def size (x : Double) : ℚ := x.significand * 2 ^ x.exponent

def value (x : Double) : ℚ := if x.negative then -x.size else x.size

theorem size_nonneg (x : Double) : 0 ≤ x.size := by
  unfold size
  positivity

theorem abs_value (x : Double) : |x.value| = x.size := by
  rw [value]
  split
  · rw [abs_neg, abs_of_nonneg x.size_nonneg]
  · exact abs_of_nonneg x.size_nonneg

/-- The finite numbers of double precision. Significands of less than 53 bits have the least exponent. -/
structure InRange (x : Double) : Prop where
  significand : x.significand < 2 * leastFull
  exponent : minExponent ≤ x.exponent ∧ x.exponent ≤ maxExponent
  full : leastFull ≤ x.significand ∨ x.exponent = minExponent

/-- Between two ends, which belong to the interval of an even number. -/
def Between (c : ℕ) (low high v : ℚ) : Prop := if c % 2 = 0 then low ≤ v ∧ v ≤ high else low < v ∧ v < high

/-- In the rounding interval of `x`, which is given in quarters of a unit of the last place. -/
def Around (x : Double) (q : ℚ) : Prop :=
  Between x.significand x.interval.1 x.interval.2 (4 * q / 2 ^ x.exponent)

theorem Between.bounds {c : ℕ} {low high v : ℚ} (h : Between c low high v) : low ≤ v ∧ v ≤ high := by
  unfold Between at h
  split_ifs at h
  · exact h
  · exact ⟨h.1.le, h.2.le⟩

/-! ### The nearest integer -/

theorem nearest_eq_iff_mul {num den : ℕ} (hden : 0 < den) (c : ℕ) :
    nearest num den = c ↔
      if c % 2 = 0 then 2 * c * den ≤ 2 * num + den ∧ 2 * num ≤ (2 * c + 1) * den
      else 2 * c * den < 2 * num + den ∧ 2 * num < (2 * c + 1) * den := by
  have hnum : den * (num / den) + num % den = num := Nat.div_add_mod num den
  have hrest : num % den < den := Nat.mod_lt num hden
  unfold nearest
  dsimp only
  generalize num / den = q at hnum ⊢
  generalize num % den = r at hnum hrest ⊢
  -- With `c` compared to the quotient, the products are multiples of `den * q`.
  obtain hlt | rfl | rfl | hlt : c < q ∨ c = q ∨ c = q + 1 ∨ q + 1 < c := by omega
  · have hmul : (2 * c + 2) * den ≤ 2 * (den * q) := by nlinarith
    have hadd : (2 * c + 2) * den = (2 * c + 1) * den + den := by ring
    split_ifs <;> omega
  · have hlow : 2 * c * den = 2 * (den * c) := by ring
    have hhigh : (2 * c + 1) * den = 2 * (den * c) + den := by ring
    split_ifs <;> omega
  · have hlow : 2 * (q + 1) * den = 2 * (den * q) + 2 * den := by ring
    have hhigh : (2 * (q + 1) + 1) * den = 2 * (den * q) + 3 * den := by ring
    split_ifs <;> omega
  · have hmul : 2 * (den * q) + 4 * den ≤ 2 * c * den := by nlinarith
    split_ifs <;> omega

theorem nearest_eq_iff {num den : ℕ} (hden : 0 < den) (c : ℕ) :
    nearest num den = c ↔ Between c (c - 1 / 2) (c + 1 / 2) (num / den) := by
  have hden' : (0 : ℚ) < den := by exact_mod_cast hden
  rw [nearest_eq_iff_mul hden, Between, le_div_iff₀ hden', div_le_iff₀ hden', lt_div_iff₀ hden', div_lt_iff₀ hden']
  rw [← Nat.cast_le (α := ℚ), ← Nat.cast_le (α := ℚ), ← Nat.cast_lt (α := ℚ), ← Nat.cast_lt (α := ℚ)]
  push_cast
  split_ifs <;> constructor <;> rintro ⟨hlow, hhigh⟩ <;> constructor <;> linarith

/-! ### Fractions shifted by an exponent -/

theorem shift_pos {den : ℕ} (hden : 0 < den) (n : ℕ) : 0 < den <<< n := by
  rw [Nat.shiftLeft_eq]
  positivity

theorem shift_div (num den : ℕ) (e : ℤ) :
    ((num <<< (-e).toNat : ℕ) : ℚ) / (den <<< e.toNat : ℕ) = num / den / 2 ^ e := by
  rw [Nat.shiftLeft_eq, Nat.shiftLeft_eq]
  push_cast
  obtain ⟨n, rfl | rfl⟩ := e.eq_nat_or_neg
  · simp [div_div]
  · simp [mul_div_right_comm]

theorem shift_lt_iff {num den : ℕ} (hden : 0 < den) (e : ℤ) (n : ℕ) :
    num <<< (-e).toNat < (den * n) <<< e.toNat ↔ (num / den : ℚ) < n * 2 ^ e := by
  have hpos : (0 : ℚ) < (den <<< e.toNat : ℕ) := by exact_mod_cast shift_pos hden _
  have hmul : (den * n) <<< e.toNat = n * den <<< e.toNat := by
    rw [Nat.shiftLeft_eq, Nat.shiftLeft_eq]
    ring
  rw [hmul, ← div_lt_iff₀ (by positivity), ← shift_div, div_lt_iff₀ hpos]
  exact_mod_cast Iff.rfl

theorem nearest_shift_eq_iff (num : ℕ) {den : ℕ} (hden : 0 < den) (e : ℤ) (c : ℕ) :
    nearest (num <<< (-e).toNat) (den <<< e.toNat) = c ↔
      Between c (c - 1 / 2) (c + 1 / 2) (num / den / 2 ^ e) := by
  rw [nearest_eq_iff (shift_pos hden _), shift_div]

theorem cast_leastFull : (leastFull : ℚ) = 2 ^ (52 : ℤ) := by
  rw [leastFull, Nat.one_shiftLeft]
  norm_num

theorem one_le_leastFull : (1 : ℚ) ≤ leastFull := by exact_mod_cast (by decide : 1 ≤ leastFull)

theorem fullExponent_bounds {num den : ℕ} (hnum : num ≠ 0) (hden : 0 < den) :
    leastFull * 2 ^ fullExponent num den ≤ (num / den : ℚ) ∧
      (num / den : ℚ) < 2 * leastFull * 2 ^ fullExponent num den := by
  have hden' : (0 : ℚ) < den := by exact_mod_cast hden
  have hnumLow : (2 : ℚ) ^ (num.log2 : ℤ) ≤ num := by exact_mod_cast Nat.log2_self_le hnum
  have hnumHigh : (num : ℚ) < 2 ^ (num.log2 + 1 : ℤ) := by exact_mod_cast Nat.lt_log2_self
  have hdenLow : (2 : ℚ) ^ (den.log2 : ℤ) ≤ den := by exact_mod_cast Nat.log2_self_le hden.ne'
  have hdenHigh : (den : ℚ) < 2 ^ (den.log2 + 1 : ℤ) := by exact_mod_cast Nat.lt_log2_self
  have hlow : leastFull * 2 ^ ((num.log2 : ℤ) - den.log2 - 52 - 1) ≤ (num / den : ℚ) := calc
    _ = (2 : ℚ) ^ (num.log2 : ℤ) / 2 ^ (den.log2 + 1 : ℤ) := by
      rw [cast_leastFull, ← zpow_add₀ two_ne_zero, ← zpow_sub₀ two_ne_zero]
      ring_nf
    _ ≤ num / den := div_le_div₀ (by positivity) hnumLow hden' hdenHigh.le
  have hhigh : (num / den : ℚ) < 2 * leastFull * 2 ^ ((num.log2 : ℤ) - den.log2 - 52) := calc
    (num / den : ℚ) < 2 ^ (num.log2 + 1 : ℤ) / 2 ^ (den.log2 : ℤ) :=
      div_lt_div₀ hnumHigh hdenLow (by positivity) (by positivity)
    _ = _ := by
      rw [cast_leastFull, mul_assoc, ← zpow_add₀ two_ne_zero, ← zpow_one_add₀ two_ne_zero, ← zpow_sub₀ two_ne_zero]
      ring_nf
  rw [fullExponent]
  generalize (num.log2 : ℤ) - den.log2 - 52 = e at hlow hhigh ⊢
  split_ifs with htest
  · rw [shift_lt_iff hden] at htest
    refine ⟨hlow, ?_⟩
    rw [zpow_sub_one₀ two_ne_zero]
    linarith
  · rw [shift_lt_iff hden, not_lt] at htest
    exact ⟨htest, hhigh⟩

/-- The exponent of a fraction, by the bits it leaves for the significand. -/
theorem fullExponent_lt_iff {num den : ℕ} (hnum : num ≠ 0) (hden : 0 < den) (e : ℤ) :
    fullExponent num den < e ↔ (num / den : ℚ) / 2 ^ e < leastFull := by
  obtain ⟨hlow, hhigh⟩ := fullExponent_bounds hnum hden
  have hfull : (0 : ℚ) < leastFull := zero_lt_one.trans_le one_le_leastFull
  rw [div_lt_iff₀ (by positivity)]
  constructor
  · intro hlt
    calc (num / den : ℚ) < leastFull * 2 ^ (fullExponent num den + 1) := by
          rw [zpow_add_one₀ two_ne_zero]
          linarith
      _ ≤ leastFull * 2 ^ e := by
        gcongr
        · norm_num
        · omega
  · intro hlt
    have hpow : (2 : ℚ) ^ fullExponent num den < 2 ^ e := lt_of_mul_lt_mul_left (hlow.trans_lt hlt) hfull.le
    exact (zpow_lt_zpow_iff_right₀ one_lt_two).1 hpow

theorem fullExponent_le_iff {num den : ℕ} (hnum : num ≠ 0) (hden : 0 < den) (e : ℤ) :
    fullExponent num den ≤ e ↔ (num / den : ℚ) / 2 ^ e < 2 * leastFull := by
  rw [← Int.lt_add_one_iff, fullExponent_lt_iff hnum hden, zpow_add_one₀ two_ne_zero, ← div_div,
    div_lt_iff₀ two_pos, mul_comm]

/-! ### The rounding interval -/

theorem interval_fst (x : Double) :
    (x.interval.1 : ℚ) =
      if x.significand = 0 then 0
      else if x.significand = leastFull ∧ minExponent < x.exponent then (4 * x.significand - 1 : ℚ)
      else (4 * x.significand - 2 : ℚ) := by
  have hfull : leastFull ≠ 0 := by decide
  rw [interval]
  by_cases hzero : x.significand = 0
  · simp [hzero, hfull.symm]
  · rw [if_neg hzero]
    split_ifs
    · rw [Nat.cast_sub (by omega), Nat.cast_mul, Nat.cast_ofNat, Nat.cast_one]
    · rw [Nat.cast_sub (by omega), Nat.cast_mul, Nat.cast_ofNat, Nat.cast_ofNat]

/-- Half a unit to both sides, but for the numbers below a power of two, which lie closer. -/
theorem around_iff {x : Double} {q : ℚ} (hq : 0 ≤ q) :
    x.Around q ↔
      Between x.significand (x.significand - 1 / 2) (x.significand + 1 / 2) (q / 2 ^ x.exponent) ∧
        (x.significand = leastFull → minExponent < x.exponent → (leastFull : ℚ) - 1 / 4 ≤ q / 2 ^ x.exponent) := by
  have hpos : 0 ≤ q / 2 ^ x.exponent := by positivity
  have heven : leastFull % 2 = 0 := by decide
  have hsnd : (x.interval.2 : ℚ) = 4 * x.significand + 2 := by
    rw [interval]
    push_cast
    rfl
  rw [Around, interval_fst, hsnd, mul_div_assoc]
  generalize q / 2 ^ x.exponent = t at hpos ⊢
  unfold Between
  by_cases hzero : x.significand = 0
  · have hne : ¬ 0 = leastFull := by decide
    simp only [hzero, hne, Nat.zero_mod, if_true, Nat.cast_zero, false_implies, and_true]
    constructor <;> rintro ⟨hlow, hhigh⟩ <;> constructor <;> linarith
  rw [if_neg hzero]
  by_cases hpower : x.significand = leastFull ∧ minExponent < x.exponent
  · rw [if_pos hpower, hpower.1, if_pos heven, if_pos heven]
    constructor
    · rintro ⟨hlow, hhigh⟩
      exact ⟨⟨by linarith, by linarith⟩, fun _ _ => by linarith⟩
    · rintro ⟨⟨-, hhigh⟩, hlow⟩
      exact ⟨by linarith [hlow rfl hpower.2], by linarith⟩
  · have hnot : x.significand = leastFull → minExponent < x.exponent → (leastFull : ℚ) - 1 / 4 ≤ t :=
      fun hfull hlt => absurd ⟨hfull, hlt⟩ hpower
    rw [if_neg hpower, and_iff_left hnot]
    split_ifs <;> constructor <;> rintro ⟨hlow, hhigh⟩ <;> constructor <;> linarith

theorem Around.abs_sub_le {x : Double} {q : ℚ} (h : x.Around q) (hq : 0 ≤ q) : |q - x.size| ≤ 2 ^ x.exponent / 2 := by
  have hpos : (0 : ℚ) < 2 ^ x.exponent := by positivity
  obtain ⟨hlow, hhigh⟩ := ((around_iff hq).1 h).1.bounds
  rw [le_div_iff₀ hpos] at hlow
  rw [div_le_iff₀ hpos] at hhigh
  rw [abs_le, size]
  constructor <;> linarith

theorem Around.of_le {x : Double} {p q r : ℚ} (hp : x.Around p) (hr : x.Around r) (hpq : p ≤ q) (hqr : q ≤ r) :
    x.Around q := by
  have hpq : 4 * p / 2 ^ x.exponent ≤ 4 * q / 2 ^ x.exponent := by gcongr
  have hqr : 4 * q / 2 ^ x.exponent ≤ 4 * r / 2 ^ x.exponent := by gcongr
  unfold Around Between at *
  split_ifs at *
  · exact ⟨hp.1.trans hpq, hqr.trans hr.2⟩
  · exact ⟨hp.1.trans_le hpq, hqr.trans_lt hr.2⟩

/-- A quarter of a unit below belongs to the interval, also of a power of two. -/
theorem around_of_lt {x : Double} {q : ℚ} (hq : 0 ≤ q) (hlow : x.size - 2 ^ x.exponent / 4 < q) (hhigh : q ≤ x.size) :
    x.Around q := by
  have hpos : (0 : ℚ) < 2 ^ x.exponent := by positivity
  have hquarter : x.size - 2 ^ x.exponent / 4 = (x.significand - 1 / 4) * 2 ^ x.exponent := by
    rw [size]
    ring
  rw [hquarter, ← lt_div_iff₀ hpos] at hlow
  rw [size, ← div_le_iff₀ hpos] at hhigh
  rw [around_iff hq, Between]
  refine ⟨?_, fun hfull _ => ?_⟩
  · split_ifs <;> constructor <;> linarith
  · rw [← hfull]
    exact hlow.le

theorem around_size (x : Double) : x.Around x.size := by
  have hpos : (0 : ℚ) < 2 ^ x.exponent := by positivity
  exact around_of_lt x.size_nonneg (by linarith) le_rfl

/-! ### Neighbours -/

/-- The distance to the next smaller number. -/
def gapBelow (x : Double) : ℚ :=
  if x.significand = leastFull ∧ minExponent < x.exponent then 2 ^ x.exponent / 2 else 2 ^ x.exponent

theorem gapBelow_le (x : Double) : x.gapBelow ≤ 2 ^ x.exponent := by
  have hpos : (0 : ℚ) < 2 ^ x.exponent := by positivity
  unfold gapBelow
  split_ifs <;> linarith

/-- Between a number and its neighbours there is none of double precision. -/
theorem size_gap {x y : Double} (hx : x.InRange) (hy : y.InRange) :
    y.size = x.size ∨ x.size + 2 ^ x.exponent ≤ y.size ∨ y.size ≤ x.size - x.gapBelow := by
  have hpos : (0 : ℚ) < 2 ^ x.exponent := by positivity
  rcases le_or_gt x.exponent y.exponent with hle | hlt
  · -- Both are multiples of the last place of `x`.
    obtain ⟨n, hn⟩ : ∃ n : ℕ, y.size = n * 2 ^ x.exponent := by
      refine ⟨y.significand * 2 ^ (y.exponent - x.exponent).toNat, ?_⟩
      rw [size, Nat.cast_mul, Nat.cast_pow, Nat.cast_ofNat, mul_assoc, ← zpow_natCast, ← zpow_add₀ two_ne_zero,
        Int.toNat_of_nonneg (by omega), sub_add_cancel]
    rw [hn, size]
    rcases lt_trichotomy n x.significand with hlt | rfl | hgt
    · have hle : (n + 1 : ℚ) * 2 ^ x.exponent ≤ x.significand * 2 ^ x.exponent := by
        gcongr
        exact_mod_cast hlt
      exact Or.inr (Or.inr (by linarith [x.gapBelow_le]))
    · exact Or.inl rfl
    · have hle : (x.significand + 1 : ℚ) * 2 ^ x.exponent ≤ n * 2 ^ x.exponent := by
        gcongr
        exact_mod_cast hgt
      exact Or.inr (Or.inl (by linarith))
  · have hmin : minExponent < x.exponent := hy.exponent.1.trans_lt hlt
    have hfull : leastFull ≤ x.significand := hx.full.resolve_right hmin.ne'
    have hbelow : y.size ≤ (leastFull - 1 / 2) * 2 ^ x.exponent := calc
      y.size ≤ (2 * leastFull - 1) * 2 ^ (x.exponent - 1) := by
        have hle : (y.significand + 1 : ℚ) ≤ 2 * leastFull := by exact_mod_cast hy.significand
        have hpow : (2 : ℚ) ^ y.exponent ≤ 2 ^ (x.exponent - 1) := zpow_le_zpow_right₀ one_le_two (by omega)
        exact mul_le_mul (by linarith) hpow (by positivity) (by linarith [one_le_leastFull])
      _ = (leastFull - 1 / 2) * 2 ^ x.exponent := by
        rw [zpow_sub_one₀ two_ne_zero]
        ring
    refine Or.inr (Or.inr (hbelow.trans ?_))
    rw [gapBelow, size]
    split_ifs with hpower
    · rw [hpower.1]
      linarith
    · have hlt : leastFull < x.significand := lt_of_le_of_ne hfull fun heq => hpower ⟨heq.symm, hmin⟩
      have hle : (leastFull + 1 : ℚ) * 2 ^ x.exponent ≤ x.significand * 2 ^ x.exponent := by
        gcongr
        exact_mod_cast hlt
      linarith

/-- No number of double precision is nearer than the one that a fraction lies around. -/
theorem Around.abs_sub_le_abs_sub {x y : Double} (hx : x.InRange) (hy : y.InRange) {q : ℚ} (hq : 0 ≤ q)
    (h : x.Around q) : |q - x.size| ≤ |q - y.size| := by
  have hpos : (0 : ℚ) < 2 ^ x.exponent := by positivity
  have hlow : x.size - x.gapBelow / 2 ≤ q := by
    obtain ⟨hhalf, hquarter⟩ := (around_iff hq).1 h
    rw [size, gapBelow]
    split_ifs with hpower
    · have hle := hquarter hpower.1 hpower.2
      rw [le_div_iff₀ hpos] at hle
      rw [hpower.1]
      linarith
    · have hle := hhalf.bounds.1
      rw [le_div_iff₀ hpos] at hle
      linarith
  have hhigh := (abs_le.1 (h.abs_sub_le hq)).2
  rcases size_gap hx hy with heq | hge | hle
  · rw [heq]
  · rw [abs_sub_comm q y.size]
    exact (abs_le.2 ⟨by linarith, by linarith⟩).trans (le_abs_self _)
  · have hgap : 0 ≤ x.gapBelow := by
      unfold gapBelow
      split_ifs <;> positivity
    exact (abs_le.2 ⟨by linarith, by linarith⟩).trans (le_abs_self _)

/-! ### Rounding -/

/-- The rounding of a fraction but zero. A significand of 54 bits is carried into the exponent. -/
theorem round?_of_ne_zero (negative : Bool) {num : ℕ} (den : ℕ) (hnum : num ≠ 0) {e : ℤ}
    (he : max (fullExponent num den) minExponent = e) {m : ℕ}
    (hm : nearest (num <<< (-e).toNat) (den <<< e.toNat) = m) :
    round? negative num den =
      if m = 2 * leastFull then if maxExponent < e + 1 then none else some ⟨negative, leastFull, e + 1⟩
      else if maxExponent < e then none else some ⟨negative, m, e⟩ := by
  have hround (p : ℕ × ℤ) (hp : (if m = 2 * leastFull then (leastFull, e + 1) else (m, e)) = p) :
      round? negative num den = if maxExponent < p.2 then none else some ⟨negative, p.1, p.2⟩ := by
    subst hp
    rw [round?, if_neg hnum, he, ← hm]
  by_cases hcarry : m = 2 * leastFull
  · rw [if_pos hcarry, hround _ (if_pos hcarry)]
  · rw [if_neg hcarry, hround _ (if_neg hcarry)]

theorem round?_of_around {x : Double} (hx : x.InRange) {num den : ℕ} (hden : 0 < den) (hq : x.Around (num / den)) :
    round? x.negative num den = some x := by
  obtain ⟨negative, m, e⟩ := x
  obtain ⟨hm, ⟨hmin, hmax⟩, hfull⟩ := hx
  obtain ⟨hhalf, hquarter⟩ := (around_iff (by positivity)).1 hq
  dsimp only at hm hmin hmax hfull hhalf hquarter ⊢
  obtain ⟨hlow, hhigh⟩ := hhalf.bounds
  by_cases hnum : num = 0
  · have hzero : (m : ℚ) < 1 := by
      rw [hnum, Nat.cast_zero, zero_div, zero_div] at hlow
      linarith
    obtain rfl : m = 0 := Nat.lt_one_iff.1 (by exact_mod_cast hzero)
    obtain rfl : e = minExponent := hfull.resolve_left (by decide)
    rw [round?, if_pos hnum, zero]
  by_cases hcarry : fullExponent num den < e ∧ minExponent < e
  · -- Only a power of two has numbers with a lower exponent around it; they are rounded with one bit more, and carried.
    have hlt := (fullExponent_lt_iff hnum hden e).1 hcarry.1
    have hle : (m : ℚ) < leastFull + 1 := by linarith
    have hle : m < leastFull + 1 := by exact_mod_cast hle
    obtain rfl : m = leastFull := by omega
    have hbit : (num / den : ℚ) / 2 ^ (e - 1) = 2 * (num / den / 2 ^ e) := by
      rw [zpow_sub_one₀ two_ne_zero]
      field_simp
    have hge : ¬ fullExponent num den < e - 1 := by
      rw [fullExponent_lt_iff hnum hden, hbit, not_lt]
      linarith [hquarter rfl hcarry.2, one_le_leastFull]
    have he : max (fullExponent num den) minExponent = e - 1 := by omega
    have hnearest : nearest (num <<< (-(e - 1)).toNat) (den <<< (e - 1).toNat) = 2 * leastFull := by
      rw [nearest_shift_eq_iff num hden, hbit, Between, if_pos (by decide), Nat.cast_mul, Nat.cast_ofNat]
      constructor <;> linarith [hquarter rfl hcarry.2]
    rw [round?_of_ne_zero negative den hnum he hnearest, if_pos rfl, sub_add_cancel, if_neg (by omega)]
  · have hle : fullExponent num den ≤ e := by
      have hle : (m + 1 : ℚ) ≤ 2 * leastFull := by exact_mod_cast hm
      rw [fullExponent_le_iff hnum hden]
      linarith
    have he : max (fullExponent num den) minExponent = e := by omega
    rw [round?_of_ne_zero negative den hnum he ((nearest_shift_eq_iff num hden e m).2 hhalf), if_neg (by omega),
      if_neg (by omega)]

theorem inRange_zero (negative : Bool) : (zero negative).InRange :=
  ⟨(by decide : 0 < 2 * leastFull), ⟨le_rfl, (by decide : minExponent ≤ maxExponent)⟩, Or.inr rfl⟩

theorem around_of_round? {negative : Bool} {num den : ℕ} (hden : 0 < den) {x : Double}
    (h : round? negative num den = some x) : x.negative = negative ∧ x.InRange ∧ x.Around (num / den) := by
  by_cases hnum : num = 0
  · rw [round?, if_pos hnum, Option.some.injEq] at h
    subst h
    refine ⟨rfl, inRange_zero negative, ?_⟩
    have hsize : (num / den : ℚ) = (zero negative).size := by simp [hnum, size, zero]
    rw [hsize]
    exact around_size _
  rw [around_iff (by positivity)]
  obtain ⟨e, he⟩ : ∃ e, max (fullExponent num den) minExponent = e := ⟨_, rfl⟩
  obtain ⟨m, hm⟩ : ∃ m, nearest (num <<< (-e).toNat) (den <<< e.toNat) = m := ⟨_, rfl⟩
  rw [round?_of_ne_zero negative den hnum he hm] at h
  rw [nearest_shift_eq_iff num hden] at hm
  obtain ⟨hlow, hhigh⟩ := hm.bounds
  have hlt : (num / den : ℚ) / 2 ^ e < 2 * leastFull := (fullExponent_le_iff hnum hden e).1 (by omega)
  have hge (hmin : minExponent < e) : (leastFull : ℚ) ≤ num / den / 2 ^ e := by
    rw [← not_lt, ← fullExponent_lt_iff hnum hden]
    omega
  split_ifs at h with hcarry hmax hmax
  · cases h
    have hhalf : (num / den : ℚ) / 2 ^ (e + 1) = num / den / 2 ^ e / 2 := by
      rw [zpow_add_one₀ two_ne_zero, ← div_div]
    rw [hcarry, Nat.cast_mul, Nat.cast_ofNat] at hlow
    refine ⟨rfl, ⟨(by decide : leastFull < 2 * leastFull), ?_, Or.inl le_rfl⟩, ?_, fun _ _ => ?_⟩
    · dsimp only
      omega
    · dsimp only
      rw [hhalf, Between, if_pos (by decide)]
      constructor <;> linarith
    · dsimp only
      rw [hhalf]
      linarith
  · cases h
    have hle : (m : ℚ) < 2 * leastFull + 1 := by linarith
    have hle : m < 2 * leastFull + 1 := by exact_mod_cast hle
    refine ⟨rfl, ⟨?_, ?_, ?_⟩, hm, fun _ hmin => ?_⟩
    · dsimp only
      omega
    · dsimp only
      omega
    · rcases eq_or_lt_of_le (by omega : minExponent ≤ e) with hmin | hmin
      · exact Or.inr hmin.symm
      · have hfull : (leastFull : ℚ) < m + 1 := by linarith [hge hmin]
        have hfull : leastFull < m + 1 := by exact_mod_cast hfull
        exact Or.inl (Nat.lt_succ_iff.1 hfull)
    · dsimp only at hmin ⊢
      linarith [hge hmin]

/-- A fraction is rounded to the number of double precision that it lies around. -/
theorem round?_eq_some_iff {negative : Bool} {num den : ℕ} (hden : 0 < den) {x : Double} :
    round? negative num den = some x ↔ x.negative = negative ∧ x.InRange ∧ x.Around (num / den) := by
  constructor
  · exact around_of_round? hden
  · rintro ⟨rfl, hx, hq⟩
    exact round?_of_around hx hden hq

/-- Only what is nearer to the power of two after the largest number than to that one is out of range. -/
theorem isSome_round? (negative : Bool) {num den : ℕ} (hden : 0 < den)
    (h : (num / den : ℚ) < (2 * leastFull - 1 / 2) * 2 ^ maxExponent) : (round? negative num den).isSome = true := by
  by_cases hnum : num = 0
  · rw [round?, if_pos hnum, Option.isSome_some]
  have hpos : (0 : ℚ) < 2 ^ maxExponent := by positivity
  rw [← div_lt_iff₀ hpos] at h
  have hle : fullExponent num den ≤ maxExponent := by
    rw [fullExponent_le_iff hnum hden]
    linarith
  have hmin : minExponent < maxExponent := by decide
  obtain ⟨e, he⟩ : ∃ e, max (fullExponent num den) minExponent = e := ⟨_, rfl⟩
  obtain ⟨m, hm⟩ : ∃ m, nearest (num <<< (-e).toNat) (den <<< e.toNat) = m := ⟨_, rfl⟩
  rw [round?_of_ne_zero negative den hnum he hm]
  split_ifs with hcarry hmax hmax
  · obtain rfl : e = maxExponent := by omega
    have hlow := ((nearest_shift_eq_iff num hden maxExponent m).1 hm).bounds.1
    rw [hcarry, Nat.cast_mul, Nat.cast_ofNat] at hlow
    linarith
  · rfl
  · omega
  · rfl

/-! ### Numbers that are read -/

theorem inRange_of_round? {negative : Bool} {num den : ℕ} (hden : 0 < den) {x : Double}
    (h : round? negative num den = some x) : x.InRange :=
  ((round?_eq_some_iff hden).1 h).2.1

theorem inRange_ofInt (n : ℤ) : (ofInt n).InRange := by
  rw [ofInt, ofFraction]
  cases h : round? (n < 0) n.natAbs 1 with
  | none => exact inRange_zero _
  | some x => exact inRange_of_round? one_pos h

theorem pow_maxPowTen_lt : (Nat.pow 10 maxPowTen : ℕ) < (2 * leastFull - 1 / 2 : ℚ) * 2 ^ maxExponent := by
  have hlt : 2 * Nat.pow 10 maxPowTen + 2 ^ maxExponent.toNat < 4 * leastFull * 2 ^ maxExponent.toNat := by
    decide +kernel
  have hcast : (2 * (Nat.pow 10 maxPowTen : ℕ) + 2 ^ maxExponent.toNat : ℚ) < 4 * leastFull * 2 ^ maxExponent.toNat := by
    exact_mod_cast hlt
  have hpow : (2 : ℚ) ^ maxExponent = 2 ^ maxExponent.toNat := by
    rw [← zpow_natCast, Int.toNat_of_nonneg (by decide)]
  rw [hpow]
  linarith

theorem significand_powTen_ne_zero {n : ℕ} (hn : n ≤ maxPowTen) : (powTen n).significand ≠ 0 := by
  have hmono {m : ℕ} (hm : n ≤ m) : Nat.pow 10 n ≤ Nat.pow 10 m := Nat.pow_le_pow_right (by decide) hm
  have hle : ((Nat.pow 10 n : ℕ) : ℚ) ≤ (Nat.pow 10 maxPowTen : ℕ) := Nat.cast_le.2 (hmono hn)
  have hsome : (round? false (Nat.pow 10 n) 1).isSome = true := by
    refine isSome_round? false one_pos ?_
    rw [Nat.cast_one, div_one]
    exact hle.trans_lt pow_maxPowTen_lt
  obtain ⟨x, hx⟩ := Option.isSome_iff_exists.1 hsome
  obtain ⟨-, hrange, haround⟩ := around_of_round? one_pos hx
  rw [powTen, ofFraction, hx, Option.getD_some]
  intro hzero
  -- Nothing that rounds to zero reaches one.
  have hexponent : x.exponent = minExponent := hrange.full.resolve_left (by rw [hzero]; decide)
  have hbound := (abs_le.1 (haround.abs_sub_le (by positivity))).2
  have hsmall : (2 : ℚ) ^ minExponent ≤ 1 := zpow_le_one_of_nonpos₀ one_le_two (by decide)
  have hone : (1 : ℚ) ≤ (Nat.pow 10 n : ℕ) := Nat.one_le_cast.2 (Nat.pow_pos (by decide))
  rw [size, hzero, hexponent, Nat.cast_zero, zero_mul, Nat.cast_one, div_one] at hbound
  linarith

theorem inRange_of_ofDecimal? {negative : Bool} {significand : ℕ} {exponent : ℤ} {x : Double}
    (h : ofDecimal? negative significand exponent = some x) : x.InRange := by
  have hdiv {y z : Double} {n : ℕ} (hn : n ≤ maxPowTen) (hz : y.div? (powTen n) = some z) : z.InRange :=
    inRange_of_round? (shift_pos (Nat.pos_of_ne_zero (significand_powTen_ne_zero hn)) _) hz
  obtain ⟨y, hy, h⟩ := Option.bind_eq_some_iff.1 h
  dsimp only at h
  split_ifs at h with hzero hexponent hmul hone htwo
  · cases h
    exact inRange_of_round? one_pos hy
  · exact inRange_of_round? (shift_pos one_pos _) h
  · exact hdiv hone h
  · obtain ⟨z, -, h⟩ := Option.bind_eq_some_iff.1 h
    exact hdiv (by omega) h
  · cases h
    exact inRange_zero negative

end Double

/-- Every number in a document is of double precision, also one that is an integer to begin with. -/
theorem Numeral.inRange_of_value? {t : Numeral} {n : Number} (h : t.value? = some n) {x : Double}
    (hx : (Json.num n).double? = some x) : x.InRange := by
  cases n with
  | int n =>
    cases hx
    exact Double.inRange_ofInt n
  | float y =>
    cases hx
    unfold value? at h
    dsimp only at h
    split_ifs at h
    · cases h
    · obtain ⟨y, hy, hfloat⟩ := Option.map_eq_some_iff.1 h
      cases hfloat
      exact Double.inRange_of_round? one_pos hy
    · cases h
    · obtain ⟨y, hy, hfloat⟩ := Option.map_eq_some_iff.1 h
      cases hfloat
      exact Double.inRange_of_ofDecimal? hy

end ChartNormal
