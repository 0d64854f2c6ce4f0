import LumbungMesari.Sql.Numeric
import Mathlib.Data.Int.Log
import Mathlib.Data.Rat.Floor
import Mathlib.Algebra.Order.Round
import Mathlib.Algebra.Ring.Int.Parity
import Mathlib.Tactic.Linarith
import Mathlib.Tactic.Positivity
import Mathlib.Tactic.FieldSimp
import Mathlib.Tactic.Ring
import Mathlib.Tactic.NormNum

/-!
# Doubles

A number of JavaScript as the rational that it is: a binary64 with 53 binary digits and no digit
below `2⁻¹⁰⁷⁴`. An operation rounds its exact result to the nearest double, ties to even. There is
no largest exponent, so nothing overflows, and there is no NaN.

Numbers are printed as the shortest decimal that is read as the same number.
-/

namespace Js

/-! ### Rounding -/

/-- Round to the nearest integer, ties to even. -/
def roundHalfEven (q : ℚ) : ℤ :=
  if Int.fract q < 1 / 2 ∨ (Int.fract q = 1 / 2 ∧ Even ⌊q⌋) then ⌊q⌋ else ⌊q⌋ + 1

theorem abs_roundHalfEven_sub_le (q : ℚ) : |(roundHalfEven q : ℚ) - q| ≤ 1 / 2 := by
  have hfract := Int.fract_add_floor q
  have hnonneg := Int.fract_nonneg q
  have hlt := Int.fract_lt_one q
  rw [abs_le]
  unfold roundHalfEven
  split
  · rename_i hdown
    have hle : Int.fract q ≤ 1 / 2 := hdown.elim le_of_lt fun h => h.1.le
    constructor <;> linarith
  · rename_i hup
    have hle : 1 / 2 ≤ Int.fract q := not_lt.1 fun h => hup (.inl h)
    push_cast
    constructor <;> linarith

theorem roundHalfEven_intCast (n : ℤ) : roundHalfEven n = n := by
  rw [roundHalfEven, Int.fract_intCast, Int.floor_intCast]
  norm_num

theorem roundHalfEven_nonneg {q : ℚ} (h : 0 ≤ q) : 0 ≤ roundHalfEven q := by
  have hfloor := Int.floor_nonneg.2 h
  unfold roundHalfEven
  split <;> omega

theorem abs_roundHalfEven_le {q : ℚ} {n : ℤ} (h : |q| ≤ n) : |roundHalfEven q| ≤ n := by
  have hround := abs_le.1 (abs_roundHalfEven_sub_le q)
  have hq := abs_le.1 h
  rw [abs_le]
  constructor
  · have hlt : ((-n - 1 : ℤ) : ℚ) < roundHalfEven q := by
      push_cast
      linarith
    have := Int.cast_lt.1 hlt
    omega
  · have hlt : (roundHalfEven q : ℚ) < (n + 1 : ℤ) := by
      push_cast
      linarith
    have := Int.cast_lt.1 hlt
    omega

theorem roundHalfEven_mono {q r : ℚ} (h : q ≤ r) : roundHalfEven q ≤ roundHalfEven r := by
  have hbounds : ∀ q : ℚ, ⌊q⌋ ≤ roundHalfEven q ∧ roundHalfEven q ≤ ⌊q⌋ + 1 := by
    intro q
    unfold roundHalfEven
    split <;> omega
  rcases (Int.floor_mono h).lt_or_eq with hlt | heq
  · have := hbounds q
    have := hbounds r
    omega
  · have hfract : Int.fract q ≤ Int.fract r := by
      rw [Int.fract, Int.fract, heq]
      linarith
    unfold roundHalfEven
    rw [heq]
    split
    · split <;> omega
    · rename_i hq
      rw [if_neg]
      rintro (hr | ⟨hr, heven⟩)
      · exact hq (.inl (by linarith))
      · exact hq ((hfract.trans_eq hr).lt_or_eq.imp_right fun he => ⟨he, heven⟩)

/-- The exponent of the last binary digit that is kept of a number. -/
def lastPlace (q : ℚ) : ℤ := max (Int.log 2 |q| - 52) (-1074)

/-- The nearest double. -/
def nearest (q : ℚ) : ℚ := roundHalfEven (q / 2 ^ lastPlace q) * 2 ^ lastPlace q

theorem two_zpow_pos (k : ℤ) : (0 : ℚ) < 2 ^ k := zpow_pos (by norm_num) k

/-- At most 53 binary digits are kept. -/
theorem abs_div_lastPlace_le (q : ℚ) : |q / 2 ^ lastPlace q| ≤ ((2 ^ 53 : ℤ) : ℚ) := by
  have hpos := two_zpow_pos (lastPlace q)
  have hlt := Int.lt_zpow_succ_log_self (b := 2) (by norm_num) |q|
  have hle : Int.log 2 |q| + 1 ≤ 53 + lastPlace q := by
    have := le_max_left (Int.log 2 |q| - 52) (-1074)
    rw [lastPlace]
    omega
  rw [abs_div, abs_of_pos hpos, div_le_iff₀ hpos]
  calc |q| ≤ 2 ^ (Int.log 2 |q| + 1) := by exact_mod_cast hlt.le
    _ ≤ 2 ^ (53 + lastPlace q) := zpow_le_zpow_right₀ (by norm_num) hle
    _ = ((2 ^ 53 : ℤ) : ℚ) * 2 ^ lastPlace q := by
        rw [zpow_add₀ (by norm_num)]
        norm_num

theorem abs_nearest_sub_le (q : ℚ) : |nearest q - q| ≤ 2 ^ lastPlace q / 2 := by
  have hpos := two_zpow_pos (lastPlace q)
  have hround := abs_roundHalfEven_sub_le (q / 2 ^ lastPlace q)
  have hsplit : nearest q - q =
      (roundHalfEven (q / 2 ^ lastPlace q) - q / 2 ^ lastPlace q) * 2 ^ lastPlace q := by
    rw [nearest, sub_mul, div_mul_cancel₀ _ hpos.ne']
  rw [hsplit, abs_mul, abs_of_pos hpos]
  calc |(roundHalfEven (q / 2 ^ lastPlace q) : ℚ) - q / 2 ^ lastPlace q| * 2 ^ lastPlace q
      ≤ 1 / 2 * 2 ^ lastPlace q := mul_le_mul_of_nonneg_right hround hpos.le
    _ = 2 ^ lastPlace q / 2 := by ring

@[simp] theorem nearest_zero : nearest 0 = 0 := by
  have hzero := roundHalfEven_intCast 0
  rw [Int.cast_zero] at hzero
  rw [nearest, zero_div, hzero, Int.cast_zero, zero_mul]

theorem nearest_nonneg {q : ℚ} (h : 0 ≤ q) : 0 ≤ nearest q := by
  have hround := roundHalfEven_nonneg (div_nonneg h (two_zpow_pos (lastPlace q)).le)
  exact mul_nonneg (by exact_mod_cast hround) (two_zpow_pos _).le

theorem nearest_nonpos {q : ℚ} (h : q ≤ 0) : nearest q ≤ 0 := by
  refine mul_nonpos_of_nonpos_of_nonneg ?_ (two_zpow_pos _).le
  have hround := roundHalfEven_mono (div_nonpos_of_nonpos_of_nonneg h (two_zpow_pos (lastPlace q)).le)
  rw [← Int.cast_zero, roundHalfEven_intCast] at hround
  exact_mod_cast hround

/-- Of two numbers of the same sign the doubles are in the order of the numbers. -/
theorem nearest_mono {q r : ℚ} (hq : 0 ≤ q) (h : q ≤ r) : nearest q ≤ nearest r := by
  rcases hq.eq_or_lt with rfl | hq
  · rw [nearest_zero]
    exact nearest_nonneg h
  have hr := hq.trans_le h
  have hplaces : lastPlace q ≤ lastPlace r := by
    refine max_le_max_right _ (sub_le_sub_right (Int.log_mono_right ?_ ?_) _)
    · exact abs_pos.2 hq.ne'
    · rwa [abs_of_pos hq, abs_of_pos hr]
  rcases hplaces.eq_or_lt with hsame | hlt
  · rw [nearest, nearest, hsame]
    refine mul_le_mul_of_nonneg_right ?_ (two_zpow_pos _).le
    exact_mod_cast roundHalfEven_mono (div_le_div_of_nonneg_right h (two_zpow_pos _).le)
  · -- the power of two where the digits begin to be wider lies between the doubles
    have hplace : lastPlace r = Int.log 2 |r| - 52 := by
      rcases max_choice (Int.log 2 |r| - 52) (-1074) with hmax | hmax
      · exact hmax
      · have := le_max_right (Int.log 2 |q| - 52) (-1074)
        rw [lastPlace, lastPlace, hmax] at hlt
        omega
    have hlow : (2 ^ 52 : ℤ) ≤ roundHalfEven (r / 2 ^ lastPlace r) := by
      rw [← roundHalfEven_intCast (2 ^ 52)]
      refine roundHalfEven_mono ?_
      rw [le_div_iff₀ (two_zpow_pos _), hplace]
      have hlog := Int.zpow_log_le_self (b := 2) (by norm_num) (abs_pos.2 hr.ne')
      rw [abs_of_pos hr] at hlog ⊢
      calc ((2 ^ 52 : ℤ) : ℚ) * 2 ^ (Int.log 2 r - 52) = 2 ^ Int.log 2 r := by
            rw [zpow_sub₀ (by norm_num)]
            norm_num
            field_simp
        _ ≤ r := by exact_mod_cast hlog
    have hhigh : roundHalfEven (q / 2 ^ lastPlace q) ≤ 2 ^ 53 :=
      (le_abs_self _).trans (abs_roundHalfEven_le (abs_div_lastPlace_le q))
    calc nearest q ≤ 2 ^ 53 * 2 ^ lastPlace q := by
          refine mul_le_mul_of_nonneg_right ?_ (two_zpow_pos _).le
          exact_mod_cast hhigh
      _ = 2 ^ 52 * 2 ^ (lastPlace q + 1) := by
          rw [zpow_add₀ (by norm_num)]
          ring
      _ ≤ 2 ^ 52 * 2 ^ lastPlace r :=
          mul_le_mul_of_nonneg_left (zpow_le_zpow_right₀ (by norm_num) hlt) (by norm_num)
      _ ≤ nearest r := by
          refine mul_le_mul_of_nonneg_right ?_ (two_zpow_pos _).le
          exact_mod_cast hlow

theorem lastPlace_le {q : ℚ} (hq : q ≠ 0) {k : ℤ} (hk : -1074 ≤ k) (h : |q| < 2 ^ (53 + k)) :
    lastPlace q ≤ k := by
  refine max_le ?_ hk
  have hlog := Int.zpow_log_le_self (b := 2) (by norm_num) (abs_pos.2 hq)
  have hlt := (zpow_lt_zpow_iff_right₀ (by norm_num : (1 : ℚ) < 2)).1
    (lt_of_le_of_lt (by exact_mod_cast hlog) h)
  omega

theorem abs_nearest_sub_le_of_lt {q : ℚ} {k : ℤ} (hk : -1074 ≤ k) (h : |q| < 2 ^ (53 + k)) :
    |nearest q - q| ≤ 2 ^ k / 2 := by
  rcases eq_or_ne q 0 with rfl | hq
  · rw [nearest_zero, sub_zero, abs_zero]
    exact div_nonneg (two_zpow_pos k).le (by norm_num)
  · refine (abs_nearest_sub_le q).trans (div_le_div_of_nonneg_right ?_ (by norm_num))
    exact zpow_le_zpow_right₀ (by norm_num) (lastPlace_le hq hk h)

/-- Above the smallest numbers, the error is less than the value by 53 binary digits. -/
theorem abs_nearest_sub_le_mul {q : ℚ} (h : 2 ^ (-1022 : ℤ) ≤ |q|) :
    |nearest q - q| ≤ |q| / 2 ^ 53 := by
  have hpos : 0 < |q| := (two_zpow_pos _).trans_le h
  have hlog := (Int.zpow_le_iff_le_log (b := 2) (by norm_num) hpos).1 (by exact_mod_cast h)
  have hplace : lastPlace q = Int.log 2 |q| - 52 := max_eq_left (by omega)
  calc |nearest q - q| ≤ 2 ^ (Int.log 2 |q| - 52) / 2 := hplace ▸ abs_nearest_sub_le q
    _ = 2 ^ Int.log 2 |q| / 2 ^ 53 := by
        rw [zpow_sub₀ (by norm_num)]
        norm_num
        ring
    _ ≤ |q| / 2 ^ 53 := by
        refine div_le_div_of_nonneg_right ?_ (by positivity)
        exact_mod_cast Int.zpow_log_le_self (b := 2) (by norm_num) hpos

theorem abs_nearest_sub_le_mul_of_le {q : ℚ} (h : 1 / 10 ^ 17 ≤ |q|) :
    |nearest q - q| ≤ |q| / 2 ^ 53 := by
  refine abs_nearest_sub_le_mul ?_
  calc (2 : ℚ) ^ (-1022 : ℤ) ≤ 2 ^ (-60 : ℤ) := zpow_le_zpow_right₀ (by norm_num) (by norm_num)
    _ ≤ 1 / 10 ^ 17 := by norm_num
    _ ≤ |q| := h

/-- A double is never off by more than half of what it stands for, digits below `2⁻¹⁰⁷⁴` apart. -/
theorem abs_nearest_sub_le_half {q : ℚ} {k : ℤ} (hk : -1074 ≤ k) (h : 2 ^ (53 + k) ≤ |q|) :
    |nearest q - q| ≤ |q| / 2 := by
  have hpos : 0 < |q| := (two_zpow_pos _).trans_le h
  have hlog := (Int.zpow_le_iff_le_log (b := 2) (by norm_num) hpos).1 (by exact_mod_cast h)
  have hplace : lastPlace q ≤ Int.log 2 |q| := max_le (by omega) (by omega)
  refine (abs_nearest_sub_le q).trans (div_le_div_of_nonneg_right ?_ (by norm_num))
  calc (2 : ℚ) ^ lastPlace q ≤ 2 ^ Int.log 2 |q| := zpow_le_zpow_right₀ (by norm_num) hplace
    _ ≤ |q| := by exact_mod_cast Int.zpow_log_le_self (b := 2) (by norm_num) hpos

theorem nearest_of_digits {m k : ℤ} (hk : -1074 ≤ k) (hm : |m| < 2 ^ 53) :
    nearest (m * 2 ^ k) = m * 2 ^ k := by
  rcases eq_or_ne m 0 with rfl | hm₀
  · rw [Int.cast_zero, zero_mul, nearest_zero]
  have hpos := two_zpow_pos k
  have hne : (m : ℚ) * 2 ^ k ≠ 0 := mul_ne_zero (by exact_mod_cast hm₀) hpos.ne'
  have hlt : |(m : ℚ) * 2 ^ k| < 2 ^ (53 + k) := by
    rw [abs_mul, abs_of_pos hpos, zpow_add₀ (by norm_num)]
    exact mul_lt_mul_of_pos_right (by exact_mod_cast hm) hpos
  have hle := lastPlace_le hne hk hlt
  generalize hplace : lastPlace ((m : ℚ) * 2 ^ k) = place at hle
  -- the last digit is a multiple of the last place
  have hwhole : (m : ℚ) * 2 ^ k / 2 ^ place = ((m * 2 ^ (k - place).toNat : ℤ) : ℚ) := by
    have hpow : (2 : ℚ) ^ k = 2 ^ (k - place).toNat * 2 ^ place := by
      rw [← zpow_natCast, Int.toNat_of_nonneg (by omega), ← zpow_add₀ (by norm_num)]
      congr 1
      omega
    rw [hpow]
    push_cast
    field_simp
  rw [nearest, hplace, hwhole, roundHalfEven_intCast, ← hwhole,
    div_mul_cancel₀ _ (two_zpow_pos place).ne']

theorem nearest_nearest (q : ℚ) : nearest (nearest q) = nearest q := by
  have hlow : -1074 ≤ lastPlace q := le_max_right _ _
  have hround := abs_roundHalfEven_le (abs_div_lastPlace_le q)
  rcases hround.lt_or_eq with hlt | heq
  · exact nearest_of_digits hlow hlt
  · -- all digits are carried into the next one
    have hcarry : ∃ m : ℤ, |m| < 2 ^ 53 ∧
        roundHalfEven (q / 2 ^ lastPlace q) = m * 2 := by
      rcases eq_or_eq_neg_of_abs_eq heq with h | h
      · exact ⟨2 ^ 52, by norm_num, by rw [h]; norm_num⟩
      · exact ⟨-2 ^ 52, by norm_num, by rw [h]; norm_num⟩
    obtain ⟨m, hm, hcarry⟩ := hcarry
    have hshift : nearest q = m * 2 ^ (lastPlace q + 1) := by
      rw [nearest, hcarry, zpow_add₀ (by norm_num)]
      push_cast
      ring
    rw [hshift]
    exact nearest_of_digits (by omega) hm

/-! ### Doubles -/

/-- A double, as its value. -/
@[ext] structure Double where
  val : ℚ
  isDouble : nearest val = val
  deriving DecidableEq

namespace Double

/-- The number that a decimal is read as. -/
def ofRat (q : ℚ) : Double := ⟨nearest q, nearest_nearest q⟩

instance : Zero Double := ⟨⟨0, nearest_zero⟩⟩

instance : Add Double := ⟨fun x y => ofRat (x.val + y.val)⟩

instance : Sub Double := ⟨fun x y => ofRat (x.val - y.val)⟩

instance : Mul Double := ⟨fun x y => ofRat (x.val * y.val)⟩

instance : LinearOrder Double := .lift' val fun _ _ => Double.ext

protected theorem add_nonneg {x y : Double} (hx : 0 ≤ x.val) (hy : 0 ≤ y.val) :
    0 ≤ (x + y).val := nearest_nonneg (add_nonneg hx hy)

protected theorem sub_nonneg {x y : Double} (h : y ≤ x) : 0 ≤ (x - y).val :=
  nearest_nonneg (sub_nonneg.2 h)

protected theorem add_zero (x : Double) : x + 0 = x :=
  Double.ext ((congrArg nearest (add_zero x.val)).trans x.isDouble)

protected theorem zero_add (x : Double) : 0 + x = x :=
  Double.ext ((congrArg nearest (zero_add x.val)).trans x.isDouble)

@[simp] theorem ofRat_zero : ofRat 0 = 0 := Double.ext nearest_zero

theorem le_add {x y : Double} (hx : 0 ≤ x.val) (hy : 0 ≤ y.val) : y ≤ x + y :=
  calc y.val = nearest y.val := y.isDouble.symm
    _ ≤ nearest (x.val + y.val) := nearest_mono hy (le_add_of_nonneg_left hx)

/-! ### Printing -/

/-- The decimal of `k` digits closest to a number, and its neighbours: the first of them that is read
as the number. -/
def digits (x : Double) (k : ℕ) : Option ℚ :=
  let unit := (10 : ℚ) ^ (Int.log 10 |x.val| + 1 - k)
  let near := roundHalfEven (x.val / unit)
  ([near, ⌊x.val / unit⌋, ⌈x.val / unit⌉].map fun n : ℤ => n * unit).find? fun q =>
    nearest q = x.val

/-- `Number::toString`: the shortest decimal that is read as the number. Seventeen digits are always
enough. -/
def toDecimal (x : Double) : ℚ := ((List.range' 1 17).findSome? x.digits).getD x.val

/-- The number as a column of `s` decimals takes it: printed, and rounded as a `NUMERIC`. -/
def toNumeric (s : ℕ) (x : Double) : ℚ := Sql.roundHalfAway (x.toDecimal * 10 ^ s) / 10 ^ s

/-- `Number.prototype.toFixed`: the exact value, rounded to some decimals with ties away from zero. -/
def toFixed (decimals : ℕ) (x : Double) : ℚ :=
  Sql.roundHalfAway (x.val * 10 ^ decimals) / 10 ^ decimals

theorem nearest_toDecimal (x : Double) : nearest x.toDecimal = x.val := by
  unfold toDecimal
  cases h : (List.range' 1 17).findSome? x.digits with
  | none => exact x.isDouble
  | some q =>
      obtain ⟨k, -, hk⟩ := List.exists_of_findSome?_eq_some h
      rw [digits] at hk
      exact of_decide_eq_true (List.find?_some (p := fun q => nearest q = x.val) hk)

theorem toDecimal_nonneg {x : Double} (h : 0 ≤ x.val) : 0 ≤ x.toDecimal := by
  unfold toDecimal
  cases hfound : (List.range' 1 17).findSome? x.digits with
  | none => exact h
  | some q =>
      obtain ⟨k, -, hk⟩ := List.exists_of_findSome?_eq_some hfound
      have hunit : (0 : ℚ) < 10 ^ (Int.log 10 |x.val| + 1 - k) := zpow_pos (by norm_num) _
      have hdigits : 0 ≤ x.val / 10 ^ (Int.log 10 |x.val| + 1 - k) := div_nonneg h hunit.le
      obtain ⟨n, hn, rfl⟩ := List.mem_map.1 (List.mem_of_find?_eq_some hk)
      have hn₀ : 0 ≤ n := by
        simp only [List.mem_cons, List.not_mem_nil, or_false] at hn
        rcases hn with rfl | rfl | rfl
        · exact roundHalfEven_nonneg hdigits
        · exact Int.floor_nonneg.2 hdigits
        · exact Int.ceil_nonneg hdigits
      exact mul_nonneg (by exact_mod_cast hn₀) hunit.le

/-! ### Errors -/

/-- The number stands for `q`, up to an error. -/
def Within (x : Double) (ε q : ℚ) : Prop := |x.val - q| ≤ ε

section Errors

variable {x y : Double} {ε δ q r : ℚ} {k : ℤ}

theorem within_ofRat (hk : -1074 ≤ k) (hq : |q| < 2 ^ (53 + k)) :
    (ofRat q).Within (2 ^ k / 2) q := abs_nearest_sub_le_of_lt hk hq

theorem Within.ofRat (hk : -1074 ≤ k) {s : ℚ} (hs : |s - q| ≤ ε) (hq : |q| + ε < 2 ^ (53 + k)) :
    (ofRat s).Within (ε + 2 ^ k / 2) q := by
  have hbound : |s| < 2 ^ (53 + k) := by
    have := abs_sub_abs_le_abs_sub s q
    linarith
  calc |nearest s - q| ≤ |nearest s - s| + |s - q| := abs_sub_le ..
    _ ≤ 2 ^ k / 2 + ε := add_le_add (abs_nearest_sub_le_of_lt hk hbound) hs
    _ = ε + 2 ^ k / 2 := add_comm _ _

theorem Within.add (hk : -1074 ≤ k) (hx : x.Within ε q) (hy : y.Within δ r)
    (h : |q + r| + (ε + δ) < 2 ^ (53 + k)) : (x + y).Within (ε + δ + 2 ^ k / 2) (q + r) := by
  refine .ofRat hk ?_ h
  calc |x.val + y.val - (q + r)| = |x.val - q + (y.val - r)| := by congr 1; ring
    _ ≤ ε + δ := (abs_add_le _ _).trans (add_le_add hx hy)

theorem Within.sub (hk : -1074 ≤ k) (hx : x.Within ε q) (hy : y.Within δ r)
    (h : |q - r| + (ε + δ) < 2 ^ (53 + k)) : (x - y).Within (ε + δ + 2 ^ k / 2) (q - r) := by
  refine .ofRat hk ?_ h
  calc |x.val - y.val - (q - r)| = |x.val - q - (y.val - r)| := by congr 1; ring
    _ ≤ ε + δ := (abs_sub _ _).trans (add_le_add hx hy)

theorem Within.lt (hx : x.Within ε q) (hy : y.Within δ r) (h : q + ε + δ < r) : x < y := by
  have hx := abs_le.1 hx
  have hy := abs_le.1 hy
  change x.val < y.val
  linarith

/-- A number prints as a decimal close to it. -/
theorem Within.toDecimal (hk : -1074 ≤ k) (hx : x.Within ε q) (h : |q| + ε < 2 ^ (52 + k)) :
    |x.toDecimal - q| ≤ ε + 2 ^ k / 2 := by
  have hval : |x.val| < 2 ^ (52 + k) := by
    have := abs_sub_abs_le_abs_sub x.val q
    have hx : |x.val - q| ≤ ε := hx
    linarith
  -- a decimal out of the range of `k` is not read as a number in it
  have hrange : |x.toDecimal| < 2 ^ (53 + k) := by
    by_contra hout
    have hread := abs_nearest_sub_le_half hk (not_lt.1 hout)
    rw [x.nearest_toDecimal, abs_sub_comm] at hread
    have hdiff := abs_sub_abs_le_abs_sub x.toDecimal x.val
    have hpow : (2 : ℚ) ^ (53 + k) = 2 * 2 ^ (52 + k) := by
      rw [← zpow_one_add₀ (by norm_num)]
      congr 1
      ring
    linarith
  have hread := abs_nearest_sub_le_of_lt hk hrange
  rw [x.nearest_toDecimal, abs_sub_comm] at hread
  calc |x.toDecimal - q| ≤ |x.toDecimal - x.val| + |x.val - q| := abs_sub_le ..
    _ ≤ 2 ^ k / 2 + ε := add_le_add hread hx
    _ = ε + 2 ^ k / 2 := add_comm _ _

end Errors

/-! ### Decimals -/

section Decimals

variable {x : Double} {s : ℕ} {q : ℚ}

theorem decimal_toNumeric (s : ℕ) (x : Double) : Sql.Decimal s (x.toNumeric s) :=
  .roundHalfAway_div s _

theorem toNumeric_nonneg (h : 0 ≤ x.val) : 0 ≤ x.toNumeric s := by
  have hround := Sql.roundHalfAway_nonneg
    (mul_nonneg (toDecimal_nonneg h) (by positivity : (0 : ℚ) ≤ 10 ^ s))
  exact div_nonneg (by exact_mod_cast hround) (by positivity)

theorem toNumeric_zero (s : ℕ) : (0 : Double).toNumeric s = 0 := by
  have hzero : (0 : Double).toDecimal = 0 := by decide +kernel
  rw [toNumeric, hzero, zero_mul, ← Int.cast_zero, Sql.roundHalfAway_intCast, Int.cast_zero,
    zero_div]

theorem toNumeric_eq (hq : Sql.Decimal s q) (h : |x.toDecimal - q| < 1 / (2 * 10 ^ s)) :
    x.toNumeric s = q := hq.of_abs_sub_lt h

theorem decimal_toFixed (s : ℕ) (x : Double) : Sql.Decimal s (x.toFixed s) :=
  .roundHalfAway_div s _

theorem toFixed_nonneg (h : 0 ≤ x.val) : 0 ≤ x.toFixed s := by
  have hround := Sql.roundHalfAway_nonneg (mul_nonneg h (by positivity : (0 : ℚ) ≤ 10 ^ s))
  exact div_nonneg (by exact_mod_cast hround) (by positivity)

theorem toFixed_eq (hq : Sql.Decimal s q) (h : |x.val - q| < 1 / (2 * 10 ^ s)) :
    x.toFixed s = q := hq.of_abs_sub_lt h

end Decimals

end Double

end Js
