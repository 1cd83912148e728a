import ChartNormal.Proofs.Number.Rounding

/-!
# Shortest decimals

The shortest decimal of a number in range is what `Number.Shortest` says it is: it lies around the number, no coarser grid
has a point there, and no point of its own grid is nearer (`shortest_spec`). The search for it goes down 24 places. It
starts above the rounding interval (`not_around_of_topPlace_lt`) and ends on a grid too fine to miss it
(`onGrid?_isSome`), and each grid it passes over has no point inside (`not_around_of_onGrid?_eq_none`).
-/

namespace ChartNormal

/-! ### Powers of two and of ten -/

theorem pow_le_pow_of_mul_le {p q u w a b : ℕ} (hp : 0 < p) (hw : w ≠ 0) (hbase : p ^ u ≤ q ^ w) (h : w * a ≤ u * b) :
    p ^ a ≤ q ^ b := by
  refine (pow_le_pow_iff_left₀ (Nat.zero_le _) (Nat.zero_le _) hw).1 ?_
  calc (p ^ a) ^ w = p ^ (w * a) := by rw [← pow_mul, mul_comm]
    _ ≤ p ^ (u * b) := Nat.pow_le_pow_right hp h
    _ = (p ^ u) ^ b := pow_mul ..
    _ ≤ (q ^ w) ^ b := Nat.pow_le_pow_left hbase b
    _ = (q ^ b) ^ w := by rw [← pow_mul, ← pow_mul, mul_comm]

/-- Exponents are compared by `10 ^ 3 ≤ 2 ^ 10` above one, and by `2 ^ 93 ≤ 10 ^ 28` below. -/
theorem ten_zpow_le_two_zpow {a b : ℤ} (hpos : 10 * a ≤ 3 * b) (hneg : 93 * a ≤ 28 * b) : (10 : ℚ) ^ a ≤ 2 ^ b := by
  obtain ⟨a, rfl | rfl⟩ := a.eq_nat_or_neg <;> obtain ⟨b, rfl | rfl⟩ := b.eq_nat_or_neg
  · exact_mod_cast pow_le_pow_of_mul_le (by decide) (by decide) (by decide : 10 ^ 3 ≤ 2 ^ 10) (by omega)
  · obtain ⟨rfl, rfl⟩ : a = 0 ∧ b = 0 := by omega
    simp
  · calc (10 : ℚ) ^ (-(a : ℤ)) ≤ 1 := zpow_le_one_of_nonpos₀ (by norm_num) (by omega)
      _ ≤ 2 ^ (b : ℤ) := one_le_zpow₀ (by norm_num) (by omega)
  · rw [zpow_neg, zpow_neg]
    refine inv_anti₀ (by positivity) ?_
    exact_mod_cast pow_le_pow_of_mul_le (by decide) (by decide) (by decide : 2 ^ 93 ≤ 10 ^ 28) (by omega)

theorem two_zpow_le_ten_zpow {a b : ℤ} (hpos : 28 * b ≤ 93 * a) (hneg : 3 * b ≤ 10 * a) : (2 : ℚ) ^ b ≤ 10 ^ a := by
  have hinv : (10 : ℚ) ^ (-a) ≤ 2 ^ (-b) := ten_zpow_le_two_zpow (by omega) (by omega)
  rw [zpow_neg, zpow_neg] at hinv
  exact (inv_le_inv₀ (by positivity) (by positivity)).1 hinv

theorem two_zpow_sub_two (e : ℤ) : (2 : ℚ) ^ (e - 2) = 2 ^ e / 4 := by
  rw [zpow_sub₀ two_ne_zero]
  norm_num

namespace Double

/-! ### One grid -/

theorem scale_pos (x : Double) (g : ℤ) : (0 : ℚ) < x.scale g := by
  exact_mod_cast shift_pos (Nat.pow_pos (by decide)) _

theorem cast_step (x : Double) (g : ℤ) : (x.step g : ℚ) = 10 ^ g / 2 ^ (x.exponent - 2) * x.scale g := by
  rw [← div_eq_iff (x.scale_pos g).ne']
  refine (shift_div _ _ _).trans ?_
  congr 1
  rw [show Nat.pow = (· ^ ·) from rfl]
  obtain ⟨n, rfl | rfl⟩ := g.eq_nat_or_neg
  · simp
  · simp

theorem inside_iff (x : Double) (g : ℤ) (c : ℕ) : x.inside g c = true ↔ x.Around (c * 10 ^ g) := by
  have hscale := x.scale_pos g
  have hpoint : 4 * (c * 10 ^ g) / 2 ^ x.exponent = (c * x.step g : ℚ) / x.scale g := by
    rw [cast_step, two_zpow_sub_two]
    field_simp
  rw [inside, Around, Between, hpoint]
  simp only [le_div_iff₀ hscale, div_le_iff₀ hscale, lt_div_iff₀ hscale, div_lt_iff₀ hscale]
  split_ifs
  · simp only [Bool.and_eq_true, decide_eq_true_eq]
    exact_mod_cast Iff.rfl
  · simp only [Bool.and_eq_true, decide_eq_true_eq]
    exact_mod_cast Iff.rfl

/-- The search measures the grid and the number in one unit. -/
theorem exists_unit (x : Double) (g : ℤ) :
    ∃ k : ℚ, 0 < k ∧ x.step g = 10 ^ g * k ∧ 4 * x.significand * x.scale g = x.size * k := by
  refine ⟨x.scale g / 2 ^ (x.exponent - 2), div_pos (x.scale_pos g) (by positivity), ?_, ?_⟩
  · rw [cast_step]
    ring
  · rw [size, two_zpow_sub_two]
    field_simp

theorem below_bounds (x : Double) (g : ℤ) : x.below g * 10 ^ g ≤ x.size ∧ x.size < (x.below g + 1) * 10 ^ g := by
  obtain ⟨k, hk, hstep, hsize⟩ := x.exists_unit g
  have hpos : (0 : ℚ) < x.step g := by
    rw [hstep]
    positivity
  constructor
  · have hle : (x.below g * x.step g : ℚ) ≤ 4 * x.significand * x.scale g := by
      exact_mod_cast Nat.div_mul_le_self ..
    rw [hstep, hsize, ← mul_assoc] at hle
    exact le_of_mul_le_mul_right hle hk
  · have hlt : (4 * x.significand * x.scale g : ℚ) < x.step g * (x.below g + 1) := by
      exact_mod_cast Nat.lt_mul_div_succ _ (by exact_mod_cast hpos)
    rw [hstep, hsize, mul_right_comm] at hlt
    linarith [lt_of_mul_lt_mul_right hlt hk.le]

theorem cast_rest {x : Double} {g : ℤ} {k : ℚ} (hstep : x.step g = 10 ^ g * k)
    (hsize : 4 * x.significand * x.scale g = x.size * k) :
    (4 * x.significand * x.scale g % x.step g : ℕ) = (x.size - x.below g * 10 ^ g) * k := by
  have hdiv : (x.step g * x.below g + (4 * x.significand * x.scale g % x.step g : ℕ) : ℚ) =
      4 * x.significand * x.scale g := by
    exact_mod_cast Nat.div_add_mod ..
  rw [hstep, hsize] at hdiv
  linarith

/-- One of the two points next to `x` is taken, and the other one is no nearer where it is inside. -/
theorem onGrid?_cases {tie : Tie} {x : Double} {g : ℤ} {c : ℕ} (h : x.onGrid? tie g = some c) :
    x.inside g c = true ∧
      (c = x.below g ∧
          (x.inside g (x.below g + 1) = true → x.size - x.below g * 10 ^ g ≤ (x.below g + 1) * 10 ^ g - x.size) ∨
        c = x.below g + 1 ∧
          (x.inside g (x.below g) = true → (x.below g + 1) * 10 ^ g - x.size ≤ x.size - x.below g * 10 ^ g)) := by
  unfold onGrid? at h
  dsimp only at h
  split at h
  · next hbelow habove =>
    obtain ⟨k, hk, hstep, hsize⟩ := x.exists_unit g
    have hrest := cast_rest hstep hsize
    generalize 4 * x.significand * x.scale g % x.step g = rest at h hrest
    generalize x.step g = unit at h hstep
    have hc : c = x.below g ∧ 2 * rest ≤ unit ∨ c = x.below g + 1 ∧ unit ≤ 2 * rest := by
      cases tie <;> split_ifs at h <;> cases h <;> omega
    rcases hc with ⟨rfl, hle⟩ | ⟨rfl, hle⟩
    · have hle : (2 * rest : ℚ) ≤ unit := by exact_mod_cast hle
      rw [hstep, hrest, ← mul_assoc] at hle
      refine ⟨hbelow, Or.inl ⟨rfl, fun _ => ?_⟩⟩
      linarith [le_of_mul_le_mul_right hle hk]
    · have hle : (unit : ℚ) ≤ 2 * rest := by exact_mod_cast hle
      rw [hstep, hrest, ← mul_assoc] at hle
      refine ⟨habove, Or.inr ⟨rfl, fun _ => ?_⟩⟩
      linarith [le_of_mul_le_mul_right hle hk]
  · next hbelow habove =>
    cases h
    exact ⟨hbelow, Or.inl ⟨rfl, fun hinside => absurd (habove.symm.trans hinside) Bool.false_ne_true⟩⟩
  · next hbelow habove =>
    cases h
    exact ⟨habove, Or.inr ⟨rfl, fun hinside => absurd (hbelow.symm.trans hinside) Bool.false_ne_true⟩⟩
  · cases h

theorem onGrid?_eq_none_iff {tie : Tie} {x : Double} {g : ℤ} :
    x.onGrid? tie g = none ↔ x.inside g (x.below g) = false ∧ x.inside g (x.below g + 1) = false := by
  unfold onGrid?
  dsimp only
  split
  · next hbelow habove =>
    rw [hbelow]
    cases tie <;> split_ifs <;> simp
  all_goals simp [*]

/-- With any point of the grid the interval has the one next to `x` on its side. -/
theorem around_below_or_above {x : Double} {g : ℤ} {d : ℕ} (hd : x.Around (d * 10 ^ g)) :
    d ≤ x.below g ∧ x.Around (x.below g * 10 ^ g) ∨ x.below g < d ∧ x.Around ((x.below g + 1) * 10 ^ g) := by
  obtain ⟨hlow, hhigh⟩ := x.below_bounds g
  rcases le_or_gt d (x.below g) with hle | hlt
  · refine Or.inl ⟨hle, hd.of_le x.around_size ?_ hlow⟩
    gcongr
  · refine Or.inr ⟨hlt, x.around_size.of_le hd hhigh.le ?_⟩
    gcongr
    exact_mod_cast hlt

/-- Only points inside are found, and the nearest of them. -/
theorem onGrid?_spec {tie : Tie} {x : Double} {g : ℤ} {c : ℕ} (h : x.onGrid? tie g = some c) :
    x.Around (c * 10 ^ g) ∧ ∀ d : ℕ, x.Around (d * 10 ^ g) → |c * 10 ^ g - x.size| ≤ |d * 10 ^ g - x.size| := by
  obtain ⟨hc, hnear⟩ := onGrid?_cases h
  obtain ⟨hlow, hhigh⟩ := x.below_bounds g
  refine ⟨(inside_iff ..).1 hc, fun d hd => ?_⟩
  simp only [inside_iff, Nat.cast_add_one] at hnear
  have hbelow : |(x.below g : ℚ) * 10 ^ g - x.size| = x.size - x.below g * 10 ^ g := by
    rw [abs_sub_comm]
    exact abs_of_nonneg (by linarith)
  have habove : |((x.below g + 1 : ℕ) : ℚ) * 10 ^ g - x.size| = (x.below g + 1) * 10 ^ g - x.size := by
    rw [Nat.cast_add_one]
    exact abs_of_pos (by linarith)
  rcases around_below_or_above hd with ⟨hle, hin⟩ | ⟨hlt, hin⟩
  · have hd : (d : ℚ) * 10 ^ g ≤ x.below g * 10 ^ g := by gcongr
    have hdist : x.size - x.below g * 10 ^ g ≤ |d * 10 ^ g - x.size| := by
      rw [abs_sub_comm]
      exact (sub_le_sub_left hd _).trans (le_abs_self _)
    rcases hnear with ⟨rfl, -⟩ | ⟨rfl, hle⟩
    · rwa [hbelow]
    · rw [habove]
      exact (hle hin).trans hdist
  · have hd : (x.below g + 1 : ℚ) * 10 ^ g ≤ d * 10 ^ g := by
      gcongr
      exact_mod_cast hlt
    have hdist : (x.below g + 1) * 10 ^ g - x.size ≤ |d * 10 ^ g - x.size| :=
      (sub_le_sub_right hd _).trans (le_abs_self _)
    rcases hnear with ⟨rfl, hle⟩ | ⟨rfl, -⟩
    · rw [hbelow]
      exact (hle hin).trans hdist
    · rwa [habove]

theorem not_around_of_onGrid?_eq_none {tie : Tie} {x : Double} {g : ℤ} (h : x.onGrid? tie g = none) (d : ℕ) :
    ¬ x.Around (d * 10 ^ g) := by
  intro hd
  obtain ⟨hbelow, habove⟩ := onGrid?_eq_none_iff.1 h
  rw [Bool.eq_false_iff, ne_eq, inside_iff] at hbelow habove
  rw [Nat.cast_add_one] at habove
  rcases around_below_or_above hd with ⟨-, hin⟩ | ⟨-, hin⟩
  · exact hbelow hin
  · exact habove hin

/-! ### The search -/

/-- A grid as fine as a quarter of a unit of the last place has a point inside. -/
theorem onGrid?_isSome (tie : Tie) {x : Double} {g : ℤ} (hg : (10 : ℚ) ^ g ≤ 2 ^ (x.exponent - 2)) :
    (x.onGrid? tie g).isSome = true := by
  obtain ⟨hlow, hhigh⟩ := x.below_bounds g
  rw [two_zpow_sub_two] at hg
  refine Option.isSome_iff_ne_none.2 fun hnone => not_around_of_onGrid?_eq_none hnone (x.below g) ?_
  exact around_of_lt (by positivity) (by linarith) hlow

variable {x : Double}

theorem log2_significand_lt (hx : x.InRange) (hne : x.significand ≠ 0) : x.significand.log2 < 53 := by
  rw [Nat.log2_lt hne]
  exact hx.significand

theorem ten_zpow_lowest_le (hx : x.InRange) (hne : x.significand ≠ 0) :
    (10 : ℚ) ^ (x.topPlace - 23) ≤ 2 ^ (x.exponent - 2) := by
  have hlog := log2_significand_lt hx hne
  obtain ⟨hmin, hmax⟩ := hx.exponent
  rw [minExponent] at hmin
  rw [maxExponent] at hmax
  refine ten_zpow_le_two_zpow ?_ ?_
  · rw [topPlace]
    omega
  · rw [topPlace]
    omega

theorem lt_ten_zpow_of_topPlace_lt (hx : x.InRange) (hne : x.significand ≠ 0) {g : ℤ} (hg : x.topPlace < g) :
    (x.significand + 1 / 2) * 2 ^ x.exponent < (10 : ℚ) ^ g := by
  have hlog := log2_significand_lt hx hne
  obtain ⟨hmin, hmax⟩ := hx.exponent
  rw [minExponent] at hmin
  rw [maxExponent] at hmax
  rw [topPlace] at hg
  have hle : (x.significand + 1 : ℚ) ≤ 2 ^ (x.significand.log2 + 1 : ℤ) := by exact_mod_cast Nat.lt_log2_self
  calc (x.significand + 1 / 2) * 2 ^ x.exponent < (x.significand + 1 : ℚ) * 2 ^ x.exponent := by
        gcongr
        norm_num
    _ ≤ 2 ^ (x.significand.log2 + 1 : ℤ) * 2 ^ x.exponent := by gcongr
    _ = 2 ^ (x.significand.log2 + 1 + x.exponent) := (zpow_add₀ two_ne_zero ..).symm
    _ ≤ 10 ^ g := two_zpow_le_ten_zpow (by omega) (by omega)

theorem not_around_of_topPlace_lt (hx : x.InRange) (hne : x.significand ≠ 0) {g : ℤ} (hg : x.topPlace < g) (c : ℕ) :
    ¬ x.Around (c * 10 ^ g) := by
  intro hc
  have hpos : (0 : ℚ) < 2 ^ x.exponent := by positivity
  obtain ⟨hlow, hhigh⟩ := abs_le.1 (hc.abs_sub_le (by positivity))
  rw [size] at hlow hhigh
  rcases Nat.eq_zero_or_pos c with rfl | hc
  · have hone : (1 : ℚ) ≤ x.significand := by exact_mod_cast Nat.one_le_iff_ne_zero.2 hne
    have hle : (1 : ℚ) * 2 ^ x.exponent ≤ x.significand * 2 ^ x.exponent := by gcongr
    rw [Nat.cast_zero, zero_mul] at hlow
    linarith
  · have hone : (1 : ℚ) ≤ c := by exact_mod_cast hc
    have hle : (1 : ℚ) * 10 ^ g ≤ c * 10 ^ g := by gcongr
    linarith [lt_ten_zpow_of_topPlace_lt hx hne hg]

/-- The search ends on the first grid that has a point inside, within its 24 places. -/
theorem exists_onGrid? (tie : Tie) (hx : x.InRange) (hne : x.significand ≠ 0) :
    ∃ i c : ℕ, x.shortest tie = ⟨c, x.topPlace - i⟩ ∧ x.onGrid? tie (x.topPlace - i) = some c ∧
      ∀ j < i, x.onGrid? tie (x.topPlace - j) = none := by
  have hlowest := onGrid?_isSome tie (ten_zpow_lowest_le hx hne)
  obtain ⟨d, hd⟩ : ∃ d, ((List.range 24).findSome? fun (i : ℕ) =>
      (x.onGrid? tie (x.topPlace - i)).map (Decimal.mk · (x.topPlace - i))) = some d := by
    rw [← Option.isSome_iff_exists, List.findSome?_isSome_iff]
    exact ⟨23, by decide, by rwa [Option.isSome_map, Nat.cast_ofNat]⟩
  obtain ⟨before, i, after, hrange, hi, hbefore⟩ := List.findSome?_eq_some_iff.1 hd
  obtain ⟨c, hc, rfl⟩ := Option.map_eq_some_iff.1 hi
  refine ⟨i, c, by rw [shortest, hd, Option.getD_some], hc, fun j hj => ?_⟩
  have hi : i < 24 := List.mem_range.1 (hrange ▸ List.mem_append_right _ List.mem_cons_self)
  have hmem : j ∈ List.range 24 := List.mem_range.2 (hj.trans hi)
  have hsorted := List.pairwise_lt_range (n := 24)
  rw [hrange] at hmem hsorted
  rcases List.mem_append.1 hmem with hmem | hmem
  · exact Option.map_eq_none_iff.1 (hbefore j hmem)
  · rcases List.mem_cons.1 hmem with rfl | hmem
    · exact absurd hj (lt_irrefl j)
    · exact absurd hj (List.rel_of_pairwise_cons (List.pairwise_append.1 hsorted).2.1 hmem).not_gt

/-- **Shortest decimals.** The decimal lies around the number. Other points around it are on finer grids, or on the same
grid and no nearer. -/
theorem shortest_spec (tie : Tie) (hx : x.InRange) (hne : x.significand ≠ 0) {d : Decimal} (hd : x.shortest tie = d) :
    x.Around (d.digits * 10 ^ d.exponent) ∧
      ∀ (g : ℤ) (c : ℕ), x.Around (c * 10 ^ g) →
        g < d.exponent ∨
          g = d.exponent ∧ |d.digits * 10 ^ d.exponent - x.size| ≤ |c * 10 ^ d.exponent - x.size| := by
  obtain ⟨i, digits, hshortest, hdigits, hnone⟩ := exists_onGrid? tie hx hne
  subst hd
  rw [hshortest]
  obtain ⟨haround, hnear⟩ := onGrid?_spec hdigits
  refine ⟨haround, fun g c hc => ?_⟩
  rcases lt_trichotomy g (x.topPlace - i) with hlt | rfl | hgt
  · exact Or.inl hlt
  · exact Or.inr ⟨rfl, hnear c hc⟩
  · refine absurd hc ?_
    rcases lt_or_ge x.topPlace g with htop | htop
    · exact not_around_of_topPlace_lt hx hne htop c
    · obtain ⟨j, rfl⟩ : ∃ j : ℕ, g = x.topPlace - j := ⟨(x.topPlace - g).toNat, by omega⟩
      exact not_around_of_onGrid?_eq_none (hnone j (by omega)) c

end Double

end ChartNormal
