import SchemaApi.Number.Binary64
import Mathlib.Algebra.Order.Field.Power
import Mathlib.Tactic.FieldSimp
import Mathlib.Tactic.Linarith
import Mathlib.Tactic.NormNum
import Mathlib.Tactic.Positivity
import Mathlib.Tactic.Ring
/-!
The number that is nearest to a rational.

Numbers are `m · 2 ^ e`, with `m` below `2 ^ 53` and `e` not below `-1074`. A rational is rounded to the nearest of
them, and where two are equally near, to the one whose `m` is even (`Rounds`); so it is rounded to one number only
(`Rounds.unique`). A decimal is rounded in whole numbers: it is brought to the scale where its whole part has 53 binary
digits, or to the finest scale, and there to the nearest whole number. At that scale all numbers that are not smaller
are whole, and the smaller ones are further away (`nearest_at_scale`). What is too large for all exponents or too small
for any is settled before by the number of its decimal places. So what comes out is always nearest (`nearest_ofDecimal`).
-/

namespace SchemaApi.Binary64

/-! ## Nearest numbers -/

/-- the rational `m · 2 ^ e` -/
def magnitude (m : ℕ) (e : ℤ) : ℚ := m * 2 ^ e

/-- `m · 2 ^ e` is one of the numbers, however large its exponent -/
structure Admitted (m : ℕ) (e : ℤ) : Prop where
  digits : m < 2 ^ 53
  finest : -1074 ≤ e

/-- A rational is rounded to `m · 2 ^ e`, with as many binary digits as there may be. -/
structure Rounds (q : ℚ) (m : ℕ) (e : ℤ) : Prop where
  admitted : Admitted m e
  normal : 2 ^ 52 ≤ m ∨ e = -1074
  nearest : ∀ m' e', Admitted m' e' → |q - magnitude m e| ≤ |q - magnitude m' e'|
  even : ∀ m' e', Admitted m' e' → |q - magnitude m e| = |q - magnitude m' e'| →
    magnitude m' e' = magnitude m e ∨ m % 2 = 0

/-- the number that a sign and a rational are rounded to; what would need too large an exponent is infinite -/
inductive Nearest (negative : Bool) (q : ℚ) : Binary64 → Prop where
  | finite {m : ℕ} {e : ℤ} (h : Rounds q m e) (within : e ≤ 971) : Nearest negative q (.finite negative m e)
  | infinite {m : ℕ} {e : ℤ} (h : Rounds q m e) (beyond : 971 < e) : Nearest negative q (.infinite negative)

section
variable {x q : ℚ} {m m' : ℕ} {e e' : ℤ}

theorem two_zpow_pos (e : ℤ) : (0 : ℚ) < 2 ^ e := zpow_pos (by norm_num) e

theorem magnitude_succ (m : ℕ) (e : ℤ) : magnitude m (e + 1) = magnitude (2 * m) e := by
  rw [magnitude, magnitude, zpow_add_one₀ (by norm_num)]
  push_cast
  ring

/-- at a finer scale the same number is a larger whole number -/
theorem magnitude_of_le (finer : e ≤ e') : magnitude m' e' = magnitude (m' * 2 ^ (e' - e).toNat) e := by
  have apart : e' = (e' - e).toNat + e := by omega
  rw [magnitude, magnitude]
  nth_rewrite 1 [apart]
  rw [zpow_add₀ (by norm_num), zpow_natCast]
  push_cast
  ring

theorem magnitude_lt_iff : magnitude m e < magnitude m' e ↔ m < m' := by
  rw [magnitude, magnitude, mul_lt_mul_iff_left₀ (two_zpow_pos e)]
  exact Nat.cast_lt

/-- a number of a finer scale has fewer than 53 binary digits at a coarser one -/
theorem Admitted.lt_of_finer (h : Admitted m' e') (finer : e' < e) : magnitude m' e' < magnitude (2 ^ 52) e := by
  have steps : 1 ≤ (e - e').toNat := by omega
  have larger : m' < 2 ^ 52 * 2 ^ (e - e').toNat :=
    calc m' < 2 ^ 52 * 2 ^ 1 := h.digits
      _ ≤ 2 ^ 52 * 2 ^ (e - e').toNat := Nat.mul_le_mul_left _ (Nat.pow_le_pow_right (by norm_num) steps)
  rw [magnitude_of_le finer.le, magnitude_lt_iff]
  exact larger

/-! ## Whole numbers -/

/-- of whole numbers, one that is at most a half away is nearest -/
theorem nearest_whole (half : |x - m| ≤ 1 / 2) (even : |x - m| = 1 / 2 → m % 2 = 0) (k : ℕ) :
    |x - m| ≤ |x - k| ∧ (|x - m| = |x - k| → k = m ∨ m % 2 = 0) := by
  by_cases same : k = m
  · exact same ▸ ⟨le_rfl, fun _ => Or.inl rfl⟩
  have apart : (1 : ℚ) ≤ |(m : ℚ) - k| := by
    have : (1 : ℤ) ≤ |(m : ℤ) - k| := Int.one_le_abs (by omega)
    exact_mod_cast this
  have between : |(m : ℚ) - k| ≤ |x - m| + |x - k| := by
    rw [abs_sub_comm x m]
    exact abs_sub_le ..
  refine ⟨by linarith, fun equal => Or.inr (even ?_)⟩
  linarith

/-- at a scale where a rational has 53 binary digits before the point, or at the finest scale, the nearest whole number
is nearest of all -/
theorem nearest_at_scale (wide : 2 ^ 52 ≤ x ∨ e = -1074) (half : |x - m| ≤ 1 / 2)
    (even : |x - m| = 1 / 2 → m % 2 = 0) (h : Admitted m' e') :
    |x * 2 ^ e - magnitude m e| ≤ |x * 2 ^ e - magnitude m' e'| ∧
      (|x * 2 ^ e - magnitude m e| = |x * 2 ^ e - magnitude m' e'| →
        magnitude m' e' = magnitude m e ∨ m % 2 = 0) := by
  have distance : ∀ k : ℕ, |x * 2 ^ e - magnitude k e| = |x - k| * 2 ^ e := fun k => by
    rw [magnitude, ← sub_mul, abs_mul, abs_of_pos (two_zpow_pos e)]
  rcases le_or_gt e e' with coarser | finer
  · rw [magnitude_of_le coarser, distance, distance]
    generalize m' * 2 ^ (e' - e).toNat = k
    obtain ⟨near, tie⟩ := nearest_whole half even k
    refine ⟨mul_le_mul_of_nonneg_right near (two_zpow_pos e).le, fun equal => ?_⟩
    exact (tie (mul_right_cancel₀ (two_zpow_pos e).ne' equal)).imp_left (congrArg (magnitude · e))
  · -- the finer numbers are below those of this scale
    have normal : 2 ^ 52 ≤ x := wide.resolve_right fun finest => by have := h.finest; omega
    have below := h.lt_of_finer finer
    have further : |x * 2 ^ e - magnitude m e| < |x * 2 ^ e - magnitude m' e'| :=
      calc |x * 2 ^ e - magnitude m e| = |x - m| * 2 ^ e := distance m
        _ ≤ |x - (2 ^ 52 : ℕ)| * 2 ^ e :=
          mul_le_mul_of_nonneg_right (nearest_whole half even _).1 (two_zpow_pos e).le
        _ = x * 2 ^ e - magnitude (2 ^ 52) e := by
          rw [abs_of_nonneg (sub_nonneg.2 (by exact_mod_cast normal)), sub_mul, magnitude]
        _ < x * 2 ^ e - magnitude m' e' := sub_lt_sub_left below _
        _ ≤ |x * 2 ^ e - magnitude m' e'| := le_abs_self _
    exact ⟨further.le, fun equal => absurd equal further.ne⟩

/-- the nearest whole number as `m · 2 ^ e`; it may have one binary digit too many -/
def carried (m : ℕ) (e : ℤ) : ℕ × ℤ := if m = 2 ^ 53 then (2 ^ 52, e + 1) else (m, e)

theorem admitted_carried (finest : -1074 ≤ e) (atMost : m ≤ 2 ^ 53) : Admitted (carried m e).1 (carried m e).2 := by
  rw [carried]
  split_ifs with full
  · exact ⟨by norm_num, by omega⟩
  · exact ⟨by omega, finest⟩

theorem normal_carried (normal : 2 ^ 52 ≤ m ∨ e = -1074) :
    2 ^ 52 ≤ (carried m e).1 ∨ (carried m e).2 = -1074 := by
  rw [carried]
  split_ifs
  · exact Or.inl le_rfl
  · exact normal

theorem magnitude_carried (m : ℕ) (e : ℤ) : magnitude (carried m e).1 (carried m e).2 = magnitude m e := by
  rw [carried]
  split_ifs with full
  · rw [magnitude_succ, full]
    norm_num
  · rfl

/-- a rational is rounded to the nearest whole number at its scale -/
theorem rounds_carried (finest : -1074 ≤ e) (wide : 2 ^ 52 ≤ x ∨ e = -1074) (narrow : x < 2 ^ 53)
    (half : |x - m| ≤ 1 / 2) (even : |x - m| = 1 / 2 → m % 2 = 0) :
    Rounds (x * 2 ^ e) (carried m e).1 (carried m e).2 := by
  obtain ⟨above, under⟩ := abs_le.1 half
  have atMost : m ≤ 2 ^ 53 := by
    have : (m : ℚ) < 2 ^ 53 + 1 := by linarith
    exact Nat.lt_succ_iff.1 (by exact_mod_cast this)
  have normal : 2 ^ 52 ≤ m ∨ e = -1074 := wide.imp_left fun normal => by
    have : ((2 ^ 52 : ℕ) : ℚ) < m + 1 := by push_cast; linarith
    exact Nat.lt_succ_iff.1 (by exact_mod_cast this)
  have near := fun m' e' (h : Admitted m' e') => nearest_at_scale wide half even h
  refine ⟨admitted_carried finest atMost, normal_carried normal, fun m' e' h => ?_, fun m' e' h equal => ?_⟩
  · rw [magnitude_carried]
    exact (near m' e' h).1
  · rw [magnitude_carried] at equal ⊢
    refine ((near m' e' h).2 equal).imp_right fun isEven => ?_
    rw [carried]
    split_ifs
    · norm_num
    · exact isEven

/-! ## Only one number is nearest -/

/-- equal numbers are written in the same way -/
theorem eq_of_magnitude_eq (h : Admitted m e) (h' : Admitted m' e') (normal : 2 ^ 52 ≤ m ∨ e = -1074)
    (normal' : 2 ^ 52 ≤ m' ∨ e' = -1074) (same : magnitude m e = magnitude m' e') : m = m' ∧ e = e' := by
  have digits := h.digits
  have digits' := h'.digits
  rcases lt_trichotomy e e' with finer | rfl | coarser
  · have below := h.lt_of_finer finer
    have wide := normal'.resolve_right fun finest => by have := h.finest; omega
    rw [same, magnitude_lt_iff] at below
    omega
  · exact ⟨by_contra fun other => (lt_or_gt_of_ne other).elim
      (fun less => (magnitude_lt_iff.2 less).ne same) fun more => (magnitude_lt_iff.2 more).ne' same, rfl⟩
  · have below := h'.lt_of_finer coarser
    have wide := normal.resolve_right fun finest => by have := h'.finest; omega
    rw [← same, magnitude_lt_iff] at below
    omega

/-- nothing lies between a number and the one behind it at its scale -/
theorem magnitude_succ_le (normal : 2 ^ 52 ≤ m ∨ e = -1074) (h' : Admitted m' e')
    (less : magnitude m e < magnitude m' e') : magnitude (m + 1) e ≤ magnitude m' e' := by
  rcases le_or_gt e e' with coarser | finer
  · rw [magnitude_of_le coarser, magnitude_lt_iff] at less
    rw [magnitude_of_le coarser]
    exact not_lt.1 fun more => by have := magnitude_lt_iff.1 more; omega
  · have wide := normal.resolve_right fun finest => by have := h'.finest; omega
    have below := magnitude_lt_iff.1 (less.trans (h'.lt_of_finer finer))
    omega

/-- of two numbers that a rational is rounded to, neither is smaller: they would be neighbours, and one of them odd -/
theorem Rounds.not_below (h : Rounds q m e) (h' : Rounds q m' e') : ¬ magnitude m e < magnitude m' e' := by
  intro less
  have equal : |q - magnitude m e| = |q - magnitude m' e'| :=
    le_antisymm (h.nearest m' e' h'.admitted) (h'.nearest m e h.admitted)
  have isEven := (h.even m' e' h'.admitted equal).resolve_left less.ne'
  have isEven' := (h'.even m e h.admitted equal.symm).resolve_left less.ne
  have middle : q - magnitude m e = magnitude m' e' - q := by
    rcases abs_eq_abs.1 equal with same | opposite
    · exact absurd (sub_right_injective same) less.ne
    · rw [opposite, neg_sub]
  have next := magnitude_succ_le h.normal h'.admitted less
  have admitted := admitted_carried (e := e) h.admitted.finest h.admitted.digits
  have same : magnitude m' e' = magnitude (carried (m + 1) e).1 (carried (m + 1) e).2 := by
    rw [magnitude_carried]
    refine le_antisymm (not_lt.1 fun between => ?_) next
    -- the number behind the smaller one would be nearer
    have above : magnitude m e < magnitude (m + 1) e := magnitude_lt_iff.2 (Nat.lt_succ_self m)
    have nearer := h.nearest _ _ admitted
    rw [magnitude_carried, abs_of_nonneg (by linarith)] at nearer
    exact absurd nearer (not_le.2 (abs_lt.2 ⟨by linarith, by linarith⟩))
  have odd := (eq_of_magnitude_eq h'.admitted admitted h'.normal (normal_carried (h.normal.imp_left Nat.le_succ_of_le))
    same).1
  rw [carried] at odd
  split_ifs at odd <;> omega

/-- a rational is rounded to one number only -/
theorem Rounds.unique (h : Rounds q m e) (h' : Rounds q m' e') : m = m' ∧ e = e' :=
  eq_of_magnitude_eq h.admitted h'.admitted h.normal h'.normal
    (le_antisymm (not_lt.1 (h'.not_below h)) (not_lt.1 (h.not_below h')))

theorem Nearest.exists_rounds {negative : Bool} {x : Binary64} (h : Nearest negative q x) : ∃ m e, Rounds q m e := by
  cases h with
  | finite rounded _ => exact ⟨_, _, rounded⟩
  | infinite rounded _ => exact ⟨_, _, rounded⟩

theorem Nearest.unique {negative : Bool} {x y : Binary64} (h : Nearest negative q x)
    (h' : Nearest negative q y) : x = y := by
  cases h with
  | finite h within =>
    cases h' with
    | finite h' => rw [(h.unique h').1, (h.unique h').2]
    | infinite h' beyond => exact absurd within (not_le.2 ((h.unique h').2 ▸ beyond))
  | infinite h beyond =>
    cases h' with
    | finite h' within => exact absurd within (not_le.2 ((h.unique h').2 ▸ beyond))
    | infinite => rfl

theorem Nearest.negated {x : Binary64} (h : Nearest false q x) : Nearest true q x.neg := by
  cases h with
  | finite h within => exact .finite h within
  | infinite h beyond => exact .infinite h beyond

/-! ## Fractions -/

/-- a quotient is rounded to the nearest whole number, and to an even one of two -/
theorem abs_sub_roundQuotient (num : ℕ) {den : ℕ} (positive : 0 < den) :
    |(num : ℚ) / den - roundQuotient num den| ≤ 1 / 2 ∧
      (|(num : ℚ) / den - roundQuotient num den| = 1 / 2 → roundQuotient num den % 2 = 0) := by
  have den' : (0 : ℚ) < den := by exact_mod_cast positive
  have whole : (num : ℚ) / den = (num / den : ℕ) + (num % den : ℕ) / den := by
    rw [div_eq_iff den'.ne', add_mul, div_mul_cancel₀ _ den'.ne']
    exact_mod_cast (Nat.div_add_mod' num den).symm
  have rest : ((num % den : ℕ) : ℚ) < den := by exact_mod_cast Nat.mod_lt num positive
  have down : |(num : ℚ) / den - (num / den : ℕ)| = (num % den : ℕ) / den := by
    rw [whole, add_sub_cancel_left, abs_of_nonneg (by positivity)]
  have up : |(num : ℚ) / den - (num / den + 1 : ℕ)| = 1 - (num % den : ℕ) / den := by
    have small : ((num % den : ℕ) : ℚ) / den < 1 := (div_lt_one den').2 rest
    rw [whole, abs_of_neg (by push_cast; linarith)]
    push_cast
    ring
  simp only [roundQuotient]
  split_ifs with less more
  · have less : ((num % den : ℕ) : ℚ) / den < 1 / 2 := by
      rw [div_lt_div_iff₀ den' two_pos]
      exact_mod_cast (by omega : num % den * 2 < 1 * den)
    rw [down]
    exact ⟨less.le, fun tie => absurd tie less.ne⟩
  · have more : 1 / 2 < ((num % den : ℕ) : ℚ) / den := by
      rw [div_lt_div_iff₀ two_pos den']
      exact_mod_cast (by omega : 1 * den < num % den * 2)
    rw [up]
    exact ⟨by linarith, fun tie => by linarith⟩
  · have tie : ((num % den : ℕ) : ℚ) / den = 1 / 2 := by
      rw [div_eq_div_iff den'.ne' two_ne_zero]
      exact_mod_cast (by omega : num % den * 2 = 1 * den)
    rcases Nat.mod_two_eq_zero_or_one (num / den) with even | odd
    · rw [even, Nat.add_zero, down]
      exact ⟨tie.le, fun _ => even⟩
    · rw [odd, up]
      exact ⟨by linarith, fun _ => by omega⟩

/-- a fraction over `2 ^ e` -/
def atExponent (num den : ℕ) (e : ℤ) : ℕ × ℕ :=
  if 0 ≤ e then (num, den * 2 ^ e.toNat) else (num * 2 ^ (-e).toNat, den)

theorem atExponent_pos (num : ℕ) {den : ℕ} (positive : 0 < den) (e : ℤ) : 0 < (atExponent num den e).2 := by
  unfold atExponent
  split_ifs
  · exact Nat.mul_pos positive (Nat.two_pow_pos _)
  · exact positive

theorem atExponent_mul (num : ℕ) {den : ℕ} (positive : 0 < den) (e : ℤ) :
    ((atExponent num den e).1 : ℚ) / (atExponent num den e).2 * 2 ^ e = (num : ℚ) / den := by
  have den' : (den : ℚ) ≠ 0 := by exact_mod_cast positive.ne'
  unfold atExponent
  split_ifs with large
  · have power : (2 : ℚ) ^ e = 2 ^ e.toNat := by rw [← zpow_natCast, Int.toNat_of_nonneg large]
    rw [power]
    push_cast
    field_simp
  · have power : (2 : ℚ) ^ e = (2 ^ (-e).toNat)⁻¹ := by
      rw [← zpow_natCast, Int.toNat_of_nonneg (by omega), zpow_neg, inv_inv]
    rw [power]
    push_cast
    field_simp

variable {num den : ℕ}

/-- the binary digits of numerator and denominator give the scale of a fraction, up to one -/
theorem fraction_bounds (hnum : 0 < num) (hden : 0 < den) :
    2 ^ 52 * 2 ^ ((num.log2 : ℤ) - den.log2 - 53) ≤ (num : ℚ) / den ∧
      (num : ℚ) / den < 2 ^ 54 * 2 ^ ((num.log2 : ℤ) - den.log2 - 53) := by
  have den' : (0 : ℚ) < den := by exact_mod_cast hden
  have numLow : (2 : ℚ) ^ num.log2 ≤ num := by exact_mod_cast Nat.log2_self_le hnum.ne'
  have numHigh : (num : ℚ) < 2 ^ (num.log2 + 1) := by exact_mod_cast Nat.lt_log2_self
  have denLow : (2 : ℚ) ^ den.log2 ≤ den := by exact_mod_cast Nat.log2_self_le hden.ne'
  have denHigh : (den : ℚ) < 2 ^ (den.log2 + 1) := by exact_mod_cast Nat.lt_log2_self
  have apart : (2 : ℚ) ^ ((num.log2 : ℤ) - den.log2 - 53) = 2 ^ num.log2 / 2 ^ den.log2 / 2 ^ 53 := by
    rw [zpow_sub₀ two_ne_zero, zpow_sub₀ two_ne_zero]
    norm_cast
  rw [apart, le_div_iff₀ den', div_lt_iff₀ den']
  rw [pow_succ] at numHigh denHigh
  have ratio : (2 : ℚ) ^ num.log2 / 2 ^ den.log2 * 2 ^ den.log2 = 2 ^ num.log2 := div_mul_cancel₀ _ (by positivity)
  have positive : (0 : ℚ) < 2 ^ num.log2 / 2 ^ den.log2 := by positivity
  generalize (2 : ℚ) ^ num.log2 / 2 ^ den.log2 = t at *
  have upper := mul_lt_mul_of_pos_left denHigh positive
  have lower := mul_le_mul_of_nonneg_left denLow positive.le
  constructor <;> linarith

theorem atExponent_lt_iff (hden : 0 < den) (e : ℤ) :
    (atExponent num den e).1 / (atExponent num den e).2 < 2 * leastNormal ↔ (num : ℚ) / den < 2 ^ 53 * 2 ^ e := by
  have positive := atExponent_pos num hden e
  have positive' : (0 : ℚ) < (atExponent num den e).2 := by exact_mod_cast positive
  rw [← atExponent_mul num hden e, mul_lt_mul_iff_left₀ (two_zpow_pos e), div_lt_iff₀ positive',
    Nat.div_lt_iff_lt_mul positive]
  norm_cast

/-- the scale at which a fraction has 53 binary digits before the point -/
def scaleOf (num den : ℕ) : ℤ :=
  let guess := (num.log2 : ℤ) - den.log2 - 53
  if (atExponent num den guess).1 / (atExponent num den guess).2 < 2 * leastNormal then guess else guess + 1

theorem scaleOf_bounds (hnum : 0 < num) (hden : 0 < den) :
    2 ^ 52 * 2 ^ scaleOf num den ≤ (num : ℚ) / den ∧ (num : ℚ) / den < 2 ^ 53 * 2 ^ scaleOf num den := by
  obtain ⟨low, high⟩ := fraction_bounds hnum hden
  rw [scaleOf]
  generalize (num.log2 : ℤ) - den.log2 - 53 = guess at low high
  split_ifs with fits
  · exact ⟨low, (atExponent_lt_iff hden guess).1 fits⟩
  · have large := not_lt.1 fun small => fits ((atExponent_lt_iff hden guess).2 small)
    rw [zpow_add_one₀ two_ne_zero]
    exact ⟨by linarith, by linarith⟩

/-- a fraction is brought to its scale, or to the finest one, and there to the nearest whole number -/
theorem ofFraction_eq (negative : Bool) (num den : ℕ) : ofFraction negative num den =
    let e := max (-1074) (scaleOf num den)
    let rounded := carried (roundQuotient (atExponent num den e).1 (atExponent num den e).2) e
    if 971 < rounded.2 then .infinite negative else .finite negative rounded.1 rounded.2 := by
  simp only [ofFraction, decide_eq_true_eq]
  rfl

theorem nearest_ofFraction (negative : Bool) (hnum : 0 < num) (hden : 0 < den) :
    Nearest negative ((num : ℚ) / den) (ofFraction negative num den) := by
  obtain ⟨low, high⟩ := scaleOf_bounds hnum hden
  rw [ofFraction_eq]
  generalize scaled : max (-1074) (scaleOf num den) = e
  obtain ⟨half, even⟩ := abs_sub_roundQuotient (atExponent num den e).1 (atExponent_pos num hden e)
  rw [← atExponent_mul num hden e] at low high ⊢
  generalize ((atExponent num den e).1 : ℚ) / (atExponent num den e).2 = x at *
  have narrow : x < 2 ^ 53 := by
    have coarse : (2 : ℚ) ^ scaleOf num den ≤ 2 ^ e := zpow_le_zpow_right₀ one_le_two (scaled ▸ le_max_right ..)
    refine lt_of_mul_lt_mul_right (high.trans_le ?_) (two_zpow_pos e).le
    exact mul_le_mul_of_nonneg_left coarse (by norm_num)
  have wide : 2 ^ 52 ≤ x ∨ e = -1074 := by
    rcases max_choice (-1074) (scaleOf num den) with finest | own
    · exact Or.inr (scaled ▸ finest)
    · rw [own.symm.trans scaled] at low
      exact Or.inl (le_of_mul_le_mul_right low (two_zpow_pos e))
  have rounded := rounds_carried (scaled ▸ le_max_left ..) wide narrow half even
  dsimp only
  split_ifs with large
  · exact .infinite rounded large
  · exact .finite rounded (not_lt.1 large)

end

/-! ## Decimals -/

section
variable {digits : ℕ} {exponent : ℤ}

theorem scaled_eq (digits : ℕ) (exponent : ℤ) : 0 < (scaled 10 digits exponent).2 ∧
    ((scaled 10 digits exponent).1 : ℚ) / (scaled 10 digits exponent).2 = digits * 10 ^ exponent := by
  unfold scaled
  split_ifs with large
  · have power : (10 : ℚ) ^ exponent = 10 ^ exponent.toNat := by rw [← zpow_natCast, Int.toNat_of_nonneg large]
    refine ⟨Nat.one_pos, ?_⟩
    rw [power]
    push_cast
    rw [div_one]
    norm_cast
  · have power : (10 : ℚ) ^ exponent = (10 ^ (-exponent).toNat)⁻¹ := by
      rw [← zpow_natCast, Int.toNat_of_nonneg (by omega), zpow_neg, inv_inv]
    refine ⟨Nat.pow_pos (by norm_num), ?_⟩
    rw [power, div_eq_mul_inv]
    norm_cast

/-- the places of a decimal bound it -/
theorem decimal_bounds (some : digits ≠ 0) (exponent : ℤ) :
    10 ^ (exponent + (Nat.toDigits 10 digits).length - 1) ≤ (digits : ℚ) * 10 ^ exponent ∧
      (digits : ℚ) * 10 ^ exponent < 10 ^ (exponent + (Nat.toDigits 10 digits).length) := by
  have power : (0 : ℚ) < 10 ^ exponent := zpow_pos (by norm_num) _
  have least : 10 ^ ((Nat.toDigits 10 digits).length - 1) ≤ digits := by
    by_contra less
    rcases Nat.eq_zero_or_pos ((Nat.toDigits 10 digits).length - 1) with one | more
    · rw [one] at less
      omega
    · have := (Nat.length_toDigits_le_iff (by norm_num) more).2 (not_le.1 less)
      omega
  have greatest : digits < 10 ^ (Nat.toDigits 10 digits).length :=
    (Nat.length_toDigits_le_iff (by norm_num) Nat.length_toDigits_pos).1 le_rfl
  have positive := Nat.length_toDigits_pos (b := 10) (n := digits)
  generalize (Nat.toDigits 10 digits).length = places at *
  constructor
  · have split : exponent + places - 1 = (places - 1 : ℕ) + exponent := by omega
    rw [split, zpow_add₀ (by norm_num), zpow_natCast]
    exact mul_le_mul_of_nonneg_right (by exact_mod_cast least) power.le
  · rw [add_comm, zpow_add₀ (by norm_num), zpow_natCast]
    exact mul_lt_mul_of_pos_right (by exact_mod_cast greatest) power

theorem magnitude_two_pow (k : ℕ) (e : ℤ) : magnitude (2 ^ k) e = 2 ^ (k + e) := by
  rw [magnitude, zpow_add₀ two_ne_zero, zpow_natCast]
  norm_cast

/-- what is rounded to a number whose exponent is not too large is not too large itself -/
theorem Rounds.lt {q : ℚ} {m : ℕ} {e : ℤ} (h : Rounds q m e) (within : e ≤ 971) : q < 2 ^ (1025 : ℤ) := by
  by_contra large
  have own : magnitude m e < 2 ^ (1025 : ℤ) :=
    calc magnitude m e ≤ magnitude m 971 :=
          mul_le_mul_of_nonneg_left (zpow_le_zpow_right₀ one_le_two within) (Nat.cast_nonneg m)
      _ ≤ magnitude (2 ^ 53) 971 :=
        mul_le_mul_of_nonneg_right (by exact_mod_cast h.admitted.digits.le) (two_zpow_pos 971).le
      _ = 2 ^ (1024 : ℤ) := magnitude_two_pow 53 971
      _ < 2 ^ (1025 : ℤ) := zpow_lt_zpow_right₀ one_lt_two (by norm_num)
  have near := h.nearest (2 ^ 52) 973 ⟨by norm_num, by norm_num⟩
  have power : magnitude (2 ^ 52) 973 = 2 ^ (1025 : ℤ) := magnitude_two_pow 52 973
  rw [power, abs_of_nonneg (sub_nonneg.2 (not_lt.1 large)), abs_of_nonneg (by linarith)] at near
  linarith

/-- powers of ten are compared with those of two by three binary digits to each decimal one -/
theorem eight_zpow (k : ℤ) : (8 : ℚ) ^ k = 2 ^ (3 * k) := by
  rw [zpow_mul]
  norm_num

/-- what has so few places behind so many zeros is below a half of the least number -/
theorem lt_half_of_places {q : ℚ} {k : ℤ} (below : q < 10 ^ k) (small : k < -400) : q < 1 / 2 * 2 ^ (-1074 : ℤ) :=
  calc q < 10 ^ k := below
    _ ≤ 10 ^ (-401 : ℤ) := zpow_le_zpow_right₀ (by norm_num) (by omega)
    _ ≤ 8 ^ (-401 : ℤ) := by
      rw [zpow_neg, zpow_neg]
      exact inv_anti₀ (by norm_num) (zpow_le_zpow_left₀ (by norm_num) (by norm_num) (by norm_num))
    _ = 2 ^ (3 * -401 : ℤ) := eight_zpow _
    _ ≤ 2 ^ (-1 + -1074 : ℤ) := zpow_le_zpow_right₀ one_le_two (by norm_num)
    _ = 1 / 2 * 2 ^ (-1074 : ℤ) := by rw [zpow_add₀ two_ne_zero]; norm_num

/-- what has so many places is too large for all exponents -/
theorem two_zpow_le_of_places {q : ℚ} {k : ℤ} (above : 10 ^ (k - 1) ≤ q) (large : 400 < k) : 2 ^ (1025 : ℤ) ≤ q :=
  calc (2 : ℚ) ^ (1025 : ℤ) ≤ 2 ^ (3 * 400 : ℤ) := zpow_le_zpow_right₀ one_le_two (by norm_num)
    _ = 8 ^ (400 : ℤ) := (eight_zpow 400).symm
    _ ≤ 10 ^ (400 : ℤ) := zpow_le_zpow_left₀ (by norm_num) (by norm_num) (by norm_num)
    _ ≤ 10 ^ (k - 1) := zpow_le_zpow_right₀ (by norm_num) (by omega)
    _ ≤ q := above

/-- below a half of the least number, zero is nearest -/
theorem nearest_zero (negative : Bool) {q : ℚ} (low : 0 ≤ q) (high : q < 1 / 2 * 2 ^ (-1074 : ℤ)) :
    Nearest negative q (zero negative) := by
  have power := two_zpow_pos (-1074)
  obtain ⟨x, rfl⟩ : ∃ x : ℚ, q = x * 2 ^ (-1074 : ℤ) := ⟨q / 2 ^ (-1074 : ℤ), (div_mul_cancel₀ _ power.ne').symm⟩
  have small : x < 1 / 2 := lt_of_mul_lt_mul_right high power.le
  have half : |x - (0 : ℕ)| ≤ 1 / 2 := by
    rw [Nat.cast_zero, sub_zero, abs_of_nonneg (nonneg_of_mul_nonneg_left low power)]
    exact small.le
  exact .finite (rounds_carried le_rfl (Or.inr rfl) (small.trans (by norm_num)) half fun _ => rfl) (by decide)

theorem nearest_scaled (negative : Bool) (some : digits ≠ 0) (exponent : ℤ) :
    Nearest negative (digits * 10 ^ exponent)
      (ofFraction negative (scaled 10 digits exponent).1 (scaled 10 digits exponent).2) := by
  obtain ⟨positive, same⟩ := scaled_eq digits exponent
  rw [← same]
  refine nearest_ofFraction negative ?_ positive
  unfold scaled
  split_ifs
  · exact Nat.mul_pos (Nat.pos_of_ne_zero some) (Nat.pow_pos (by norm_num))
  · exact Nat.pos_of_ne_zero some

/-- a decimal is rounded to the nearest number -/
theorem nearest_ofDecimal (negative : Bool) (digits : ℕ) (exponent : ℤ) :
    Nearest negative (digits * 10 ^ exponent) (ofDecimal negative digits exponent) := by
  unfold ofDecimal
  dsimp only
  split_ifs with none large small
  · rw [none, Nat.cast_zero, zero_mul]
    exact nearest_zero negative le_rfl (by positivity)
  · have beyond := two_zpow_le_of_places (decimal_bounds none exponent).1 large
    obtain ⟨m, e, rounded⟩ := (nearest_scaled negative none exponent).exists_rounds
    exact .infinite rounded (lt_of_not_ge fun within => beyond.not_gt (rounded.lt within))
  · exact nearest_zero negative (by positivity) (lt_half_of_places (decimal_bounds none exponent).2 small)
  · exact nearest_scaled negative none exponent

end

end SchemaApi.Binary64
