import Mathlib.Data.Rat.Floor
import Mathlib.Tactic.Linarith
import Mathlib.Tactic.Positivity
import Mathlib.Tactic.FieldSimp
import Mathlib.Tactic.Ring

/-!
# Fixed-point columns

`Numeric p s` is the SQL type `NUMERIC(p, s)`: `p` decimal digits, `s` of them behind the point. A
value is stored as a count of units of `10⁻ˢ`. Storing a rational rounds it to the nearest unit,
ties away from zero, and fails when the rounded value has more than `p` digits.
-/

namespace Sql

/-- Round to the nearest integer, ties away from zero. -/
def roundHalfAway (q : ℚ) : ℤ := if 0 ≤ q then ⌊q + 1 / 2⌋ else -⌊-q + 1 / 2⌋

theorem roundHalfAway_of_nonneg {q : ℚ} (h : 0 ≤ q) : roundHalfAway q = ⌊q + 1 / 2⌋ := if_pos h

theorem roundHalfAway_intCast (n : ℤ) : roundHalfAway n = n := by
  have hhalf : ∀ m : ℤ, ⌊(m : ℚ) + 1 / 2⌋ = m := by
    intro m
    rw [Int.floor_intCast_add, show ⌊(1 / 2 : ℚ)⌋ = 0 by rw [Int.floor_eq_zero_iff]; norm_num,
      add_zero]
  unfold roundHalfAway
  split
  · exact hhalf n
  · rw [← Int.cast_neg, hhalf, neg_neg]

/-- Rounding commutes with a shift by whole units as long as no sign changes. -/
theorem roundHalfAway_intCast_add {n : ℤ} {q : ℚ} (hq : 0 ≤ q) (hnq : 0 ≤ (n : ℚ) + q) :
    roundHalfAway (n + q) = n + roundHalfAway q := by
  rw [roundHalfAway_of_nonneg hq, roundHalfAway_of_nonneg hnq, add_assoc, Int.floor_intCast_add]

theorem roundHalfAway_nonneg {q : ℚ} (h : 0 ≤ q) : 0 ≤ roundHalfAway q := by
  rw [roundHalfAway_of_nonneg h]
  exact Int.floor_nonneg.2 (by linarith)

theorem roundHalfAway_pos {q : ℚ} : 0 < roundHalfAway q ↔ 1 / 2 ≤ q := by
  unfold roundHalfAway
  split
  · rw [Int.floor_pos]
    constructor <;> intro h <;> linarith
  · rename_i hneg
    have hfloor : 0 ≤ ⌊-q + 1 / 2⌋ := Int.floor_nonneg.2 (by linarith)
    exact iff_of_false (by omega) (by linarith)

theorem pos_of_roundHalfAway_pos {q : ℚ} (h : 0 < roundHalfAway q) : 0 < q :=
  lt_of_lt_of_le (by norm_num) (roundHalfAway_pos.1 h)

theorem roundHalfAway_nonpos {q : ℚ} (h : q ≤ 0) : roundHalfAway q ≤ 0 :=
  not_lt.1 fun hpos => h.not_gt (pos_of_roundHalfAway_pos hpos)

theorem abs_roundHalfAway_sub_le (q : ℚ) : |(roundHalfAway q : ℚ) - q| ≤ 1 / 2 := by
  have hround : ∀ q : ℚ, |(⌊q + 1 / 2⌋ : ℚ) - q| ≤ 1 / 2 := by
    intro q
    have hle := Int.floor_le (q + 1 / 2)
    have hlt := Int.lt_floor_add_one (q + 1 / 2)
    rw [abs_le]
    constructor <;> linarith
  unfold roundHalfAway
  split
  · exact hround q
  · have hneg := hround (-q)
    rw [← abs_neg] at hneg
    convert hneg using 2
    push_cast
    ring

/-- What is closer to an integer than half a unit is rounded to it. -/
theorem roundHalfAway_of_abs_sub_lt {q : ℚ} {n : ℤ} (h : |q - n| < 1 / 2) :
    roundHalfAway q = n := by
  rw [abs_lt] at h
  unfold roundHalfAway
  split
  · rw [Int.floor_eq_iff]
    constructor <;> linarith
  · have hfloor : ⌊-q + 1 / 2⌋ = -n := by
      rw [Int.floor_eq_iff]
      push_cast
      constructor <;> linarith
    rw [hfloor, neg_neg]

/-- A number with at most `s` decimals. -/
def Decimal (s : ℕ) (q : ℚ) : Prop := ∃ n : ℤ, q * 10 ^ s = n

namespace Decimal

variable {s : ℕ} {q q' : ℚ}

theorem zero : Decimal s 0 := ⟨0, by simp⟩

theorem add (h : Decimal s q) (h' : Decimal s q') : Decimal s (q + q') := by
  obtain ⟨n, hn⟩ := h
  obtain ⟨n', hn'⟩ := h'
  exact ⟨n + n', by rw [add_mul, hn, hn', Int.cast_add]⟩

theorem sub (h : Decimal s q) (h' : Decimal s q') : Decimal s (q - q') := by
  obtain ⟨n, hn⟩ := h
  obtain ⟨n', hn'⟩ := h'
  exact ⟨n - n', by rw [sub_mul, hn, hn', Int.cast_sub]⟩

theorem max_zero (h : Decimal s q) : Decimal s (max q 0) := by
  rcases max_choice q 0 with hmax | hmax <;> rw [hmax]
  · exact h
  · exact zero

theorem intCast (n : ℤ) : Decimal s n := ⟨n * 10 ^ s, by push_cast; rfl⟩

theorem mono {s' : ℕ} (h : Decimal s q) (hs : s ≤ s') : Decimal s' q := by
  obtain ⟨n, hn⟩ := h
  refine ⟨n * 10 ^ (s' - s), ?_⟩
  push_cast
  rw [← hn, mul_assoc, ← pow_add, Nat.add_sub_cancel' hs]

theorem sum {qs : List ℚ} (h : ∀ q ∈ qs, Decimal s q) : Decimal s qs.sum := by
  induction qs with
  | nil => exact zero
  | cons q qs ih =>
      rw [List.forall_mem_cons] at h
      rw [List.sum_cons]
      exact h.1.add (ih h.2)

theorem roundHalfAway_div (s : ℕ) (q : ℚ) : Decimal s (roundHalfAway q / 10 ^ s) :=
  ⟨roundHalfAway q, by field_simp⟩

/-- What is close to a number with `s` decimals is rounded to it. -/
theorem of_abs_sub_lt (h : Decimal s q) (hq : |q' - q| < 1 / (2 * 10 ^ s)) :
    (roundHalfAway (q' * 10 ^ s) : ℚ) / 10 ^ s = q := by
  obtain ⟨n, hn⟩ := h
  have hpos : (0 : ℚ) < 10 ^ s := by positivity
  have hclose : |q' * 10 ^ s - n| < 1 / 2 := by
    rw [← hn, ← sub_mul, abs_mul, abs_of_pos hpos, ← lt_div_iff₀ hpos, div_div]
    exact hq
  rw [roundHalfAway_of_abs_sub_lt hclose, ← hn, mul_div_cancel_right₀ _ hpos.ne']

/-- Different numbers with `s` decimals are a unit apart. -/
theorem add_le_of_lt (h : Decimal s q) (h' : Decimal s q') (hlt : q < q') :
    q + 1 / 10 ^ s ≤ q' := by
  obtain ⟨n, hn⟩ := h
  obtain ⟨n', hn'⟩ := h'
  have hpos : (0 : ℚ) < 10 ^ s := by positivity
  have hunits : n + 1 ≤ n' := by
    have hscaled := mul_lt_mul_of_pos_right hlt hpos
    rw [hn, hn'] at hscaled
    exact Int.cast_lt.1 hscaled
  rw [← mul_le_mul_iff_left₀ hpos, add_mul, hn, hn', one_div_mul_cancel hpos.ne']
  exact_mod_cast hunits

theorem round (h : Decimal s q) : (roundHalfAway (q * 10 ^ s) : ℚ) = q * 10 ^ s := by
  obtain ⟨n, hn⟩ := h
  rw [hn, roundHalfAway_intCast]

end Decimal

/-- A value of `NUMERIC(p, s)`, in units of `10⁻ˢ`. -/
@[ext] structure Numeric (p s : ℕ) where
  units : ℤ
  inRange : units.natAbs < 10 ^ p
  deriving DecidableEq

namespace Numeric

variable {p s : ℕ}

instance : Zero (Numeric p s) := ⟨⟨0, by positivity⟩⟩

@[simp] theorem units_zero : (0 : Numeric p s).units = 0 := rfl

/-- The exact value of a stored number. -/
def toRat (n : Numeric p s) : ℚ := n.units / 10 ^ s

/-- A count of units as a column value, when it has few enough digits. -/
def ofUnits? (u : ℤ) : Option (Numeric p s) :=
  if h : u.natAbs < 10 ^ p then some ⟨u, h⟩ else none

/-- What a column stores when it is assigned `q`. -/
def ofRat? (q : ℚ) : Option (Numeric p s) := ofUnits? (roundHalfAway (q * 10 ^ s))

theorem ofUnits?_some {u : ℤ} {n : Numeric p s} (h : ofUnits? u = some n) : n.units = u := by
  unfold ofUnits? at h
  split at h
  · rw [← Option.some.inj h]
  · cases h

theorem ofUnits?_units (n : Numeric p s) : ofUnits? n.units = some n := dif_pos n.inRange

theorem ofRat?_some {q : ℚ} {n : Numeric p s} (h : ofRat? q = some n) :
    n.units = roundHalfAway (q * 10 ^ s) := ofUnits?_some h

/-- A value that fits the decimals of a column is stored as it is. -/
theorem toRat_of_ofRat? {q : ℚ} {n : Numeric p s} (h : ofRat? q = some n) (hq : Decimal s q) :
    n.toRat = q := by
  rw [toRat, ofRat?_some h, hq.round, mul_div_cancel_right₀ _ (by positivity)]

theorem units_nonneg_of_ofRat? {q : ℚ} {n : Numeric p s} (h : ofRat? q = some n) (hq : 0 ≤ q) :
    0 ≤ n.units := by
  rw [ofRat?_some h]
  exact roundHalfAway_nonneg (by positivity)

theorem lt_of_ofRat? {q : ℚ} {n : Numeric p s} (h : ofRat? q = some n) (hq : 0 ≤ q) :
    q * 10 ^ s < 10 ^ p := by
  have hrange := n.inRange
  have hscaled : 0 ≤ q * 10 ^ s := by positivity
  rw [ofRat?_some h] at hrange
  have hlt : roundHalfAway (q * 10 ^ s) < 10 ^ p := by
    have := roundHalfAway_nonneg hscaled
    zify at hrange
    rwa [abs_of_nonneg this] at hrange
  rw [roundHalfAway_of_nonneg hscaled, Int.floor_lt] at hlt
  push_cast at hlt
  linarith

theorem toRat_mul (n : Numeric p s) : n.toRat * 10 ^ s = n.units := by
  unfold toRat
  field_simp

theorem decimal_toRat (n : Numeric p s) : Decimal s n.toRat := ⟨n.units, n.toRat_mul⟩

/-- Reading a column and storing the value again changes nothing. -/
theorem ofRat?_toRat (n : Numeric p s) : ofRat? n.toRat = some n := by
  rw [ofRat?, toRat_mul, roundHalfAway_intCast, ofUnits?_units]

@[simp] theorem toRat_zero : (0 : Numeric p s).toRat = 0 := by
  rw [toRat, units_zero, Int.cast_zero, zero_div]

theorem ofRat?_zero : (ofRat? 0 : Option (Numeric p s)) = some 0 := by
  have hzero := ofRat?_toRat (0 : Numeric p s)
  rwa [toRat_zero] at hzero

theorem toRat_pos {n : Numeric p s} : 0 < n.toRat ↔ 0 < n.units := by
  rw [toRat, lt_div_iff₀ (by positivity), zero_mul]
  exact Int.cast_pos

theorem toRat_nonneg {n : Numeric p s} : 0 ≤ n.toRat ↔ 0 ≤ n.units := by
  rw [toRat, le_div_iff₀ (by positivity), zero_mul]
  exact Int.cast_nonneg_iff

end Numeric

end Sql
