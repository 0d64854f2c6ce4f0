import LumbungMesari.Js.Digits
import LumbungMesari.Schema

/-!
# Amounts as numbers

The driver hands out a `NUMERIC` as a string, and `parseFloat` makes a number of it. Below `2³⁰` a
number is closer than `10⁻⁷` to what it stands for, so a few operations on numbers stay well within
the four decimals of the columns.
-/

namespace Js.Double

open Sql

variable {x y : Double} {ε δ q r : ℚ}

theorem Within.le (hx : x.Within ε q) (h : ε ≤ δ) : x.Within δ q := le_trans hx h

theorem half_place_le : (2 : ℚ) ^ (-23 : ℤ) / 2 ≤ 1 / 10 ^ 7 := by norm_num

theorem Within.ofRat_amount {s : ℚ} (hs : |s - q| ≤ ε) (h : |q| + ε ≤ 10 ^ 9) :
    (Double.ofRat s).Within (ε + 1 / 10 ^ 7) q := by
  have hsmall : |q| + ε < 2 ^ (53 + -23 : ℤ) := h.trans_lt (by norm_num)
  exact (Within.ofRat (by norm_num) hs hsmall).le (add_le_add_right half_place_le ε)

theorem within_amount (h : |q| ≤ 10 ^ 9) : (ofRat q).Within (1 / 10 ^ 7) q :=
  (within_ofRat (by norm_num) (h.trans_lt (by norm_num))).le half_place_le

theorem Within.add_amount (hx : x.Within ε q) (hy : y.Within δ r)
    (h : |q + r| + (ε + δ) ≤ 10 ^ 9) : (x + y).Within (ε + δ + 1 / 10 ^ 7) (q + r) :=
  (hx.add (k := -23) (by norm_num) hy (h.trans_lt (by norm_num))).le
    (add_le_add_right half_place_le _)

theorem Within.sub_amount (hx : x.Within ε q) (hy : y.Within δ r)
    (h : |q - r| + (ε + δ) ≤ 10 ^ 9) : (x - y).Within (ε + δ + 1 / 10 ^ 7) (q - r) :=
  (hx.sub (k := -23) (by norm_num) hy (h.trans_lt (by norm_num))).le
    (add_le_add_right half_place_le _)

theorem Within.lt_of_decimal (hx : x.Within ε q) (hy : y.Within δ r) (hq : Decimal 4 q)
    (hr : Decimal 4 r) (hsmall : ε + δ ≤ 1 / 10 ^ 5) (h : q < r) : x < y := by
  refine hx.lt hy ?_
  have := hq.add_le_of_lt hr h
  norm_num at this hsmall ⊢
  linarith

theorem Within.toNumeric (hx : x.Within ε q) (hq : Decimal 4 q) (hsmall : ε ≤ 1 / 10 ^ 5)
    (h : |q| ≤ 5 * 10 ^ 8) : x.toNumeric 4 = q := by
  have hrange : |q| + ε < 2 ^ (52 + -23 : ℤ) := by
    norm_num at h hsmall ⊢
    linarith
  refine toNumeric_eq hq ((hx.toDecimal (by norm_num) hrange).trans_lt ?_)
  calc ε + 2 ^ (-23 : ℤ) / 2 ≤ 1 / 10 ^ 5 + 1 / 10 ^ 7 := add_le_add hsmall half_place_le
    _ < 1 / (2 * 10 ^ 4) := by norm_num

theorem Within.toFixed (hx : x.Within ε q) (hq : Decimal 4 q) (hsmall : ε ≤ 1 / 10 ^ 5) :
    x.toFixed 4 = q := toFixed_eq hq (lt_of_le_of_lt (le_trans hx hsmall) (by norm_num))

/-- What is close to a unit of a column does not vanish. -/
theorem toFixed_ofRat_pos (h : 9 / 10 ^ 5 ≤ q) : 0 < (ofRat q).toFixed 4 := by
  have hq : 0 < q := lt_of_lt_of_le (by positivity) h
  have hclose := abs_nearest_sub_le_mul_of_le (q := q) (by
    rw [abs_of_pos hq]
    linarith)
  rw [abs_of_pos hq] at hclose
  have hunits : 1 / 2 ≤ nearest q * 10 ^ 4 := by linarith [(abs_le.1 hclose).1]
  refine div_pos ?_ (by positivity)
  rw [Int.cast_pos]
  have hfloor : 1 ≤ ⌊nearest q * 10 ^ 4 + 1 / 2⌋ := Int.le_floor.2 (by push_cast; linarith)
  rw [← roundHalfAway_of_nonneg (by linarith)] at hfloor
  exact Int.lt_iff_add_one_le.2 hfloor

end Js.Double

namespace LumbungMesari

open Sql Js

/-! ### Columns -/

theorem Money.toRat_le (m : Money) : m.toRat ≤ 10 ^ 8 := by
  have hm : (m.units : ℚ) ≤ 10 ^ 12 := by
    have := m.inRange
    exact_mod_cast (by omega : m.units ≤ 10 ^ 12)
  rw [Numeric.toRat, div_le_iff₀ (by positivity)]
  linarith

theorem Money.neg_le_toRat (m : Money) : -10 ^ 8 ≤ m.toRat := by
  have hm : (-10 ^ 12 : ℚ) ≤ m.units := by
    have := m.inRange
    exact_mod_cast (by omega : -10 ^ 12 ≤ m.units)
  rw [Numeric.toRat, le_div_iff₀ (by positivity)]
  linarith

theorem Money.abs_toRat_le (m : Money) : |m.toRat| ≤ 10 ^ 8 :=
  abs_le.2 ⟨m.neg_le_toRat, m.toRat_le⟩

theorem Money.within (m : Money) : (Double.ofRat m.toRat).Within (1 / 10 ^ 7) m.toRat :=
  Double.within_amount (m.abs_toRat_le.trans (by norm_num))

@[simp] theorem Money.toNumeric_ofRat (m : Money) : (Double.ofRat m.toRat).toNumeric 4 = m.toRat :=
  m.within.toNumeric m.decimal_toRat (by norm_num) (m.abs_toRat_le.trans (by norm_num))

@[simp] theorem Money.printed_toRat (m : Money) : printed m.toRat = m.toRat := by
  refine printed_of_decimal (by norm_num) m.decimal_toRat ?_
  linarith [m.abs_toRat_le]

/-! ### Figures of decimal.js -/

section Figures

variable {m : Money} {q : ℚ}

theorem lt_of_ofRat?_printed (h : Numeric.ofRat? (printed q) = some m) : q < 10 ^ 8 := by
  by_contra hle
  rw [not_lt] at hle
  have hwhole : printed (10 ^ 8) = 10 ^ 8 :=
    printed_of_decimal (s := 0) (by norm_num) ⟨10 ^ 8, by norm_num⟩ (by norm_num)
  have hfits := Numeric.lt_of_ofRat? h (printed_nonneg (le_trans (by norm_num) hle))
  exact hle.not_gt (lt_of_printed_lt hwhole (by norm_num) (by linarith))

theorem le_of_ofRat?_printed_decimal (h : Numeric.ofRat? (printed (decimal q)) = some m) :
    q ≤ 10 ^ 9 := by
  by_contra hgt
  have hclose := (abs_le.1 (abs_decimal_sub_le q)).1
  rw [abs_of_pos (by linarith : (0 : ℚ) < q)] at hclose
  have hlt := lt_of_ofRat?_printed h
  linarith

/-- A figure of seven decimals that fits a column is written into it as it is. -/
theorem exact_of_ofRat?_printed (hq : Decimal 7 q) (hq₀ : 0 ≤ q)
    (h : Numeric.ofRat? (printed (decimal q)) = some m) : decimal q = q ∧ printed q = q := by
  have hle := le_of_ofRat?_printed_decimal h
  have hexact : decimal q = q := decimal_of_decimal hq (by
    rw [abs_of_nonneg hq₀]
    linarith)
  rw [hexact] at h
  refine ⟨hexact, printed_of_decimal (by norm_num) hq ?_⟩
  rw [abs_of_nonneg hq₀]
  linarith [lt_of_ofRat?_printed h]

/-- Any other figure, within a unit. -/
theorem abs_units_sub_le (hq₀ : 0 ≤ q) (h : Numeric.ofRat? (printed (decimal q)) = some m) :
    |m.units - q * 10 ^ 4| ≤ 3 / 4 := by
  have hle := le_of_ofRat?_printed_decimal h
  have hkept := abs_decimal_sub_le q
  rw [abs_of_nonneg hq₀] at hkept
  have hsmall : |decimal q| ≤ 10 ^ 9 := by
    rw [abs_of_nonneg (decimal_nonneg hq₀)]
    linarith [lt_of_ofRat?_printed h]
  have hprinted : |printed (decimal q) - decimal q| ≤ 1 / 10 ^ 7 + 2 ^ (-21 : ℤ) / 2 :=
    (Double.within_amount hsmall).toDecimal (by norm_num) (by linarith)
  have hround := abs_roundHalfAway_sub_le (printed (decimal q) * 10 ^ 4)
  rw [← Numeric.ofRat?_some h] at hround
  rw [abs_le] at hkept hprinted hround
  norm_num at hprinted
  rw [abs_le]
  constructor <;> linarith

end Figures

end LumbungMesari
