import LumbungMesari.Js.Double

/-!
# Decimals of fifteen digits

A decimal of at most fifteen digits is printed as it was read. So decimal.js, which takes a number as
it is printed and keeps twenty digits, adds such decimals exactly.
-/

namespace Js

/-! ### Rounding -/

theorem roundHalfEven_of_abs_sub_lt {q : ℚ} {n : ℤ} (h : |q - n| < 1 / 2) : roundHalfEven q = n := by
  have hround := abs_roundHalfEven_sub_le q
  have hclose : |((roundHalfEven q - n : ℤ) : ℚ)| < 1 := by
    push_cast
    calc |(roundHalfEven q : ℚ) - n| ≤ |(roundHalfEven q : ℚ) - q| + |q - n| := abs_sub_le ..
      _ < 1 := by linarith
  rw [← Int.cast_abs, ← Int.cast_one, Int.cast_lt, Int.abs_lt_one_iff] at hclose
  omega

theorem eq_of_multiples {u : ℚ} (hu : 0 < u) {m n : ℤ} (h : |m * u - n * u| < u) : m = n := by
  have hlt : |((m - n : ℤ) : ℚ)| < 1 := by
    rw [← sub_mul, abs_mul, abs_of_pos hu] at h
    push_cast
    exact (mul_lt_iff_lt_one_left hu).1 h
  rw [← Int.cast_abs, ← Int.cast_one, Int.cast_lt, Int.abs_lt_one_iff] at hlt
  omega

theorem exists_multiple (n : ℤ) {e e' : ℤ} (h : e' ≤ e) :
    ∃ m : ℤ, (n : ℚ) * 10 ^ e = m * 10 ^ e' := by
  refine ⟨n * 10 ^ (e - e').toNat, ?_⟩
  push_cast
  rw [mul_assoc, ← zpow_natCast, Int.toNat_of_nonneg (by omega), ← zpow_add₀ (by norm_num),
    sub_add_cancel]

/-- Round to some digits, ties away from zero. -/
def significant (digits : ℕ) (q : ℚ) : ℚ :=
  let unit := (10 : ℚ) ^ (Int.log 10 |q| + 1 - digits)
  Sql.roundHalfAway (q / unit) * unit

theorem significant_of_digits {digits : ℕ} {n e : ℤ} (hn : |n| < 10 ^ digits) :
    significant digits (n * 10 ^ e) = n * 10 ^ e := by
  rcases eq_or_ne n 0 with rfl | hn₀
  · rw [significant, Int.cast_zero, zero_mul, zero_div, ← Int.cast_zero, Sql.roundHalfAway_intCast,
      Int.cast_zero, zero_mul]
  have hten : (0 : ℚ) < 10 ^ e := zpow_pos (by norm_num) e
  have hpos : 0 < |(n : ℚ) * 10 ^ e| := abs_pos.2 (mul_ne_zero (by exact_mod_cast hn₀) hten.ne')
  have hlt : |(n : ℚ) * 10 ^ e| < 10 ^ (digits + e) := by
    rw [abs_mul, abs_of_pos hten, zpow_add₀ (by norm_num), zpow_natCast]
    exact mul_lt_mul_of_pos_right (by exact_mod_cast hn) hten
  have hlog : Int.log 10 |(n : ℚ) * 10 ^ e| < digits + e :=
    (Int.lt_zpow_iff_log_lt (b := 10) (by norm_num) hpos).1 (by exact_mod_cast hlt)
  obtain ⟨m, hm⟩ := exists_multiple n (show Int.log 10 |(n : ℚ) * 10 ^ e| + 1 - digits ≤ e by omega)
  have hwhole : (n : ℚ) * 10 ^ e / 10 ^ (Int.log 10 |(n : ℚ) * 10 ^ e| + 1 - digits) = m := by
    rw [div_eq_iff (zpow_pos (by norm_num) _).ne']
    exact hm
  rw [significant, hwhole, Sql.roundHalfAway_intCast]
  exact hm.symm

theorem significant_nonpos (digits : ℕ) {q : ℚ} (h : q ≤ 0) : significant digits q ≤ 0 := by
  have hunit : (0 : ℚ) < 10 ^ (Int.log 10 |q| + 1 - digits) := zpow_pos (by norm_num) _
  refine mul_nonpos_of_nonpos_of_nonneg ?_ hunit.le
  have hround := Sql.roundHalfAway_nonpos (div_nonpos_of_nonpos_of_nonneg h hunit.le)
  exact_mod_cast hround

theorem significant_nonneg (digits : ℕ) {q : ℚ} (h : 0 ≤ q) : 0 ≤ significant digits q := by
  have hunit : (0 : ℚ) < 10 ^ (Int.log 10 |q| + 1 - digits) := zpow_pos (by norm_num) _
  refine mul_nonneg ?_ hunit.le
  have hround := Sql.roundHalfAway_nonneg (div_nonneg h hunit.le)
  exact_mod_cast hround

theorem abs_significant_sub_le (digits : ℕ) (q : ℚ) :
    |significant digits q - q| ≤ |q| * 10 ^ (1 - (digits : ℤ)) / 2 := by
  rcases eq_or_ne q 0 with rfl | hq
  · have hzero := significant_of_digits (e := 0) (show |(0 : ℤ)| < 10 ^ digits by simp)
    rw [Int.cast_zero, zero_mul] at hzero
    rw [hzero, sub_zero, abs_zero, zero_mul, zero_div]
  have hunit : (0 : ℚ) < 10 ^ (Int.log 10 |q| + 1 - digits) := zpow_pos (by norm_num) _
  have hlog : (10 : ℚ) ^ Int.log 10 |q| ≤ |q| := by
    exact_mod_cast Int.zpow_log_le_self (b := 10) (by norm_num) (abs_pos.2 hq)
  have hround := Sql.abs_roundHalfAway_sub_le (q / 10 ^ (Int.log 10 |q| + 1 - digits))
  have hscaled : |significant digits q - q| =
      |Sql.roundHalfAway (q / 10 ^ (Int.log 10 |q| + 1 - digits)) -
        q / 10 ^ (Int.log 10 |q| + 1 - digits)| * 10 ^ (Int.log 10 |q| + 1 - digits) := by
    rw [significant, ← abs_of_pos hunit, ← abs_mul, abs_of_pos hunit, sub_mul,
      div_mul_cancel₀ _ hunit.ne']
  calc |significant digits q - q| ≤ 1 / 2 * 10 ^ (Int.log 10 |q| + 1 - digits) := by
        rw [hscaled]
        exact mul_le_mul_of_nonneg_right hround hunit.le
    _ = 10 ^ Int.log 10 |q| * 10 ^ (1 - (digits : ℤ)) / 2 := by
        rw [← zpow_add₀ (by norm_num), add_sub_assoc]
        ring
    _ ≤ |q| * 10 ^ (1 - (digits : ℤ)) / 2 := by
        have hten : (0 : ℚ) < 10 ^ (1 - (digits : ℤ)) := zpow_pos (by norm_num) _
        exact div_le_div_of_nonneg_right (mul_le_mul_of_nonneg_right hlog hten.le) (by norm_num)

/-- What decimal.js keeps of a result: twenty digits. -/
def decimal (q : ℚ) : ℚ := significant 20 q

theorem decimal_nonpos {q : ℚ} (h : q ≤ 0) : decimal q ≤ 0 := significant_nonpos 20 h

theorem decimal_nonneg {q : ℚ} (h : 0 ≤ q) : 0 ≤ decimal q := significant_nonneg 20 h

theorem abs_decimal_sub_le (q : ℚ) : |decimal q - q| ≤ |q| / 10 ^ 18 :=
  (abs_significant_sub_le 20 q).trans (by
    rw [div_eq_mul_inv, div_eq_mul_inv, mul_assoc]
    exact mul_le_mul_of_nonneg_left (by norm_num) (abs_nonneg q))

theorem decimal_of_decimal {s : ℕ} {q : ℚ} (hq : Sql.Decimal s q) (h : |q| * 10 ^ s < 10 ^ 20) :
    decimal q = q := by
  obtain ⟨n, hn⟩ := hq
  have hten : (0 : ℚ) < 10 ^ s := by positivity
  have hdigits : q = n * 10 ^ (-(s : ℤ)) := by
    rw [← hn, zpow_neg, zpow_natCast, mul_inv_cancel_right₀ hten.ne']
  rw [← abs_of_pos hten, ← abs_mul, hn, ← Int.cast_abs] at h
  rw [hdigits, decimal, significant_of_digits (by exact_mod_cast h)]

namespace Double

/-! ### Printing -/

/-- What is printed of a number to some digits. -/
theorem eq_of_digits {x : Double} {k : ℕ} {q : ℚ} (h : x.digits k = some q) :
    nearest q = x.val ∧ ∃ n : ℤ, q = n * 10 ^ (Int.log 10 |x.val| + 1 - k) := by
  have hread : nearest q = x.val :=
    of_decide_eq_true (List.find?_some (p := fun q => nearest q = x.val) h)
  obtain ⟨n, -, hn⟩ := List.mem_map.1 (List.mem_of_find?_eq_some h)
  exact ⟨hread, n, hn.symm⟩

/-- The decimal of some digits that is close to a number and read as it is the one that is found. -/
theorem digits_eq {x : Double} {k : ℕ} {n : ℤ}
    (hread : nearest ((n : ℚ) * 10 ^ (Int.log 10 |x.val| + 1 - (k : ℤ))) = x.val)
    (hclose : |x.val - (n : ℚ) * 10 ^ (Int.log 10 |x.val| + 1 - (k : ℤ))| <
      10 ^ (Int.log 10 |x.val| + 1 - (k : ℤ)) / 2) :
    x.digits k = some ((n : ℚ) * 10 ^ (Int.log 10 |x.val| + 1 - (k : ℤ))) := by
  have hunit : (0 : ℚ) < 10 ^ (Int.log 10 |x.val| + 1 - (k : ℤ)) := zpow_pos (by norm_num) _
  have hround : roundHalfEven (x.val / 10 ^ (Int.log 10 |x.val| + 1 - (k : ℤ))) = n := by
    refine roundHalfEven_of_abs_sub_lt ?_
    rw [div_sub' hunit.ne', abs_div, abs_of_pos hunit, div_lt_iff₀ hunit, mul_comm _ (n : ℚ)]
    linarith
  rw [digits, List.map_cons, List.find?_cons_of_pos, hround]
  rw [hround, decide_eq_true_eq]
  exact hread

/-- What is found first has the fewest digits. -/
theorem exists_digits {x : Double} {k : ℕ} (h₁ : 1 ≤ k) (h₁₇ : k ≤ 17) {q : ℚ}
    (h : x.digits k = some q) : ∃ j ≤ k, x.digits j = some x.toDecimal := by
  unfold toDecimal
  cases hfound : (List.range' 1 17).findSome? x.digits with
  | none =>
      have hnone := List.findSome?_eq_none_iff.1 hfound k (List.mem_range'_1.2 ⟨h₁, by omega⟩)
      rw [h] at hnone
      cases hnone
  | some q' =>
      obtain ⟨before, j, after, hsplit, hj, hbefore⟩ := List.findSome?_eq_some_iff.1 hfound
      refine ⟨j, ?_, hj⟩
      have hk : k ∈ before ++ j :: after := hsplit ▸ List.mem_range'_1.2 ⟨h₁, by omega⟩
      rcases List.mem_append.1 hk with hk | hk
      · rw [hbefore k hk] at h
        cases h
      · have hsorted : (before ++ j :: after).Pairwise (· < ·) := hsplit ▸ List.pairwise_lt_range'
        rcases List.mem_cons.1 hk with rfl | hk
        · exact le_rfl
        · exact (List.rel_of_pairwise_cons (List.pairwise_append.1 hsorted).2.1 hk).le

theorem ten_pow_le_two_pow : (10 : ℚ) ^ 300 ≤ 2 ^ 1000 :=
  calc (10 : ℚ) ^ 300 = (10 ^ 3) ^ 100 := by rw [← pow_mul]
    _ ≤ (2 ^ 10) ^ 100 := pow_le_pow_left₀ (by norm_num) (by norm_num) 100
    _ = 2 ^ 1000 := by rw [← pow_mul]

/-- A decimal of at most fifteen digits is printed as it was read. -/
theorem toDecimal_ofRat {n e : ℤ} (he : -300 ≤ e) (hn : |n| < 10 ^ 15) :
    (ofRat (n * 10 ^ e)).toDecimal = n * 10 ^ e := by
  rcases eq_or_ne n 0 with rfl | hn₀
  · rw [Int.cast_zero, zero_mul, ofRat_zero]
    decide +kernel
  generalize hq : (n : ℚ) * 10 ^ e = q
  generalize hx : ofRat q = x
  have hval : nearest q = x.val := by rw [← hx]; rfl
  have hten : (0 : ℚ) < 10 ^ e := zpow_pos (by norm_num) e
  have habs : |q| = ((|n| : ℤ) : ℚ) * 10 ^ e := by
    rw [← hq, abs_mul, abs_of_pos hten, Int.cast_abs]
  have hone : (1 : ℚ) ≤ ((|n| : ℤ) : ℚ) := by exact_mod_cast Int.one_le_abs hn₀
  have hlast : ((|n| : ℤ) : ℚ) ≤ 10 ^ 15 - 1 := by exact_mod_cast Int.le_sub_one_of_lt hn
  -- the number is close to the decimal
  have hlow : (2 : ℚ) ^ (-1000 : ℤ) ≤ |q| :=
    calc (2 : ℚ) ^ (-1000 : ℤ) ≤ 10 ^ (-300 : ℤ) := by
          rw [zpow_neg, zpow_neg]
          exact inv_anti₀ (zpow_pos (by norm_num) _) (by exact_mod_cast ten_pow_le_two_pow)
      _ ≤ 10 ^ e := zpow_le_zpow_right₀ (by norm_num) he
      _ ≤ |q| := by
          rw [habs]
          exact le_mul_of_one_le_left hten.le hone
  have hpos : 0 < |q| := (two_zpow_pos _).trans_le hlow
  have herror : |x.val - q| ≤ |q| / 2 ^ 53 := by
    rw [← hval]
    exact abs_nearest_sub_le_mul ((zpow_le_zpow_right₀ (by norm_num) (by norm_num)).trans hlow)
  have hfrom := (abs_le.1 (abs_abs_sub_abs_le_abs_sub x.val q)).1
  have hto := (abs_le.1 (abs_abs_sub_abs_le_abs_sub x.val q)).2
  have hx₀ : 0 < |x.val| := by linarith
  have hplaces : Int.log 10 |x.val| + 1 ≤ 15 + e := by
    have hlt : |x.val| < 10 ^ (15 + e) :=
      calc |x.val| ≤ ((|n| : ℤ) : ℚ) * 10 ^ e * (1 + 1 / 2 ^ 53) := by linarith
        _ ≤ (10 ^ 15 - 1) * 10 ^ e * (1 + 1 / 2 ^ 53) := by gcongr
        _ < 10 ^ 15 * 10 ^ e := by linarith
        _ = 10 ^ (15 + e) := by
            rw [zpow_add₀ (by norm_num)]
            norm_num
    exact (Int.lt_zpow_iff_log_lt (b := 10) (by norm_num) hx₀).1 (by exact_mod_cast hlt)
  have hhigh : |x.val| < 10 ^ (Int.log 10 |x.val| + 1) := by
    exact_mod_cast Int.lt_zpow_succ_log_self (b := 10) (by norm_num) |x.val|
  -- and is found among those of fifteen digits at most
  obtain ⟨k, hk₁, hk₁₅, hke⟩ : ∃ k : ℕ, 1 ≤ k ∧ k ≤ 15 ∧ Int.log 10 |x.val| + 1 - (k : ℤ) ≤ e :=
    ⟨max 1 (Int.log 10 |x.val| + 1 - e).toNat, by omega, by omega, by omega⟩
  have hunit : (0 : ℚ) < 10 ^ (Int.log 10 |x.val| + 1 - (k : ℤ)) := zpow_pos (by norm_num) _
  have hsmall : |q| / 2 ^ 50 < 10 ^ (Int.log 10 |x.val| + 1 - (k : ℤ)) := by
    have hsplit : (10 : ℚ) ^ (Int.log 10 |x.val| + 1) =
        10 ^ (Int.log 10 |x.val| + 1 - (k : ℤ)) * 10 ^ k := by
      rw [← zpow_natCast, ← zpow_add₀ (by norm_num), sub_add_cancel]
    have hle : (10 : ℚ) ^ (Int.log 10 |x.val| + 1 - (k : ℤ)) * 10 ^ k ≤
        10 ^ (Int.log 10 |x.val| + 1 - (k : ℤ)) * 10 ^ 15 :=
      mul_le_mul_of_nonneg_left (pow_le_pow_right₀ (by norm_num) hk₁₅) hunit.le
    linarith
  obtain ⟨m, hm⟩ : ∃ m : ℤ, q = m * 10 ^ (Int.log 10 |x.val| + 1 - (k : ℤ)) :=
    hq ▸ exists_multiple n hke
  have hfound : x.digits k = some q := by
    rw [hm]
    refine digits_eq (by rw [← hm, hval]) ?_
    rw [← hm]
    linarith
  obtain ⟨j, hjk, hj⟩ := exists_digits hk₁ (by omega) hfound
  obtain ⟨-, n', hn'⟩ := eq_of_digits hj
  -- what is printed is a multiple of the same unit, and as close to the number
  obtain ⟨m', hm'⟩ : ∃ m' : ℤ, x.toDecimal = m' * 10 ^ (Int.log 10 |x.val| + 1 - (k : ℤ)) :=
    hn' ▸ exists_multiple n' (by omega)
  have hlog := Int.zpow_log_le_self (b := 2) (by norm_num) hpos
  have hlt := Int.lt_zpow_succ_log_self (b := 2) (by norm_num) |q|
  push_cast at hlog hlt
  have hclose : |x.toDecimal - q| ≤ |q| / 2 ^ 53 + 2 ^ (Int.log 2 |q| - 50) / 2 := by
    have hfrom := (Int.zpow_le_iff_le_log (b := 2) (by norm_num) hpos).1 (by exact_mod_cast hlow)
    refine Within.toDecimal (by omega) herror ?_
    calc |q| + |q| / 2 ^ 53 < 2 * 2 ^ (Int.log 2 |q| + 1) := by linarith
      _ = 2 ^ (52 + (Int.log 2 |q| - 50)) := by
          rw [← zpow_one_add₀ (by norm_num)]
          congr 1
          ring
  have hhalf : (2 : ℚ) ^ (Int.log 2 |q| - 50) ≤ |q| / 2 ^ 50 := by
    rw [zpow_sub₀ (by norm_num)]
    exact div_le_div_of_nonneg_right hlog (by positivity)
  rw [hm', hm] at hclose ⊢
  rw [eq_of_multiples hunit (lt_of_le_of_lt hclose ?_)]
  rw [← hm]
  linarith

/-! ### Sums -/

/-- `new Decimal(x).plus(q).toNumber()` -/
def plus (x : Double) (q : ℚ) : Double := ofRat (decimal (x.toDecimal + q))

section Sums

variable {s : ℕ} {q r b : ℚ} {qs : List ℚ}

theorem toDecimal_of_decimal (hs : s ≤ 300) (hq : Sql.Decimal s q) (h : |q| * 10 ^ s < 10 ^ 15) :
    (ofRat q).toDecimal = q := by
  obtain ⟨n, hn⟩ := hq
  have hten : (0 : ℚ) < 10 ^ s := by positivity
  have hq : q = n * 10 ^ (-(s : ℤ)) := by
    rw [← hn, zpow_neg, zpow_natCast, mul_inv_cancel_right₀ hten.ne']
  rw [← abs_of_pos hten, ← abs_mul, hn, ← Int.cast_abs] at h
  rw [hq]
  exact toDecimal_ofRat (by omega) (by exact_mod_cast h)

/-- decimal.js adds a decimal to one of fifteen digits exactly, up to twenty digits. -/
theorem plus_ofRat (hs : s ≤ 300) (hq : Sql.Decimal s q) (hr : Sql.Decimal s r)
    (hfifteen : |q| * 10 ^ s < 10 ^ 15) (htwenty : |q + r| * 10 ^ s < 10 ^ 20) :
    (ofRat q).plus r = ofRat (q + r) := by
  rw [plus, toDecimal_of_decimal hs hq hfifteen, decimal_of_decimal (hq.add hr) htwenty]

theorem nearest_of_whole (hq : Sql.Decimal 0 q) (h : |q| < 2 ^ 53) : nearest q = q := by
  obtain ⟨n, hn⟩ := hq
  rw [pow_zero, mul_one] at hn
  rw [hn, ← Int.cast_abs] at h
  have hdigits := nearest_of_digits (k := 0) (by norm_num) (by exact_mod_cast h : |n| < 2 ^ 53)
  rwa [zpow_zero, mul_one, ← hn] at hdigits

theorem abs_sum_le (h : ∀ q ∈ qs, |q| ≤ b) : |qs.sum| ≤ qs.length * b := by
  induction qs with
  | nil => simp
  | cons q qs ih =>
      rw [List.forall_mem_cons] at h
      have habs := abs_add_le q qs.sum
      have hrest := ih h.2
      rw [List.sum_cons, List.length_cons]
      push_cast
      linarith [h.1]

theorem partial_sum_le {n : ℕ} (q : ℚ) (hr : |r| ≤ b) :
    |q| ≤ |q| + (n + 1 : ℕ) * b ∧ |q + r| + n * b ≤ |q| + (n + 1 : ℕ) * b := by
  have hb := (abs_nonneg r).trans hr
  have habs := abs_add_le q r
  push_cast
  constructor
  · exact le_add_of_nonneg_right (by positivity)
  · linarith

/-- Decimals that stay below fifteen digits are added exactly by decimal.js. -/
theorem foldl_plus (hs : s ≤ 300) (hq : Sql.Decimal s q) (hqs : ∀ r ∈ qs, Sql.Decimal s r ∧ |r| ≤ b)
    (hbound : (|q| + qs.length * b) * 10 ^ s < 10 ^ 15) :
    qs.foldl plus (ofRat q) = ofRat (q + qs.sum) := by
  induction qs generalizing q with
  | nil => rw [List.foldl_nil, List.sum_nil, add_zero]
  | cons r qs ih =>
      obtain ⟨⟨hr, hrb⟩, hqs⟩ := List.forall_mem_cons.1 hqs
      obtain ⟨hfrom, hto⟩ := partial_sum_le (n := qs.length) q hrb
      rw [← List.length_cons (a := r)] at hfrom hto
      have hten : (0 : ℚ) < 10 ^ s := by positivity
      have hthis := (mul_le_mul_of_nonneg_right hfrom hten.le).trans_lt hbound
      have hnext := (mul_le_mul_of_nonneg_right hto hten.le).trans_lt hbound
      have hb : 0 ≤ qs.length * b * 10 ^ s := by
        have := (abs_nonneg r).trans hrb
        positivity
      have hsum : |q + r| * 10 ^ s < 10 ^ 20 := by linarith
      rw [List.foldl_cons, plus_ofRat hs hq hr hthis hsum, ih (hq.add hr) hqs hnext, List.sum_cons,
        add_assoc]

/-- Whole numbers that stay below `2⁵³` are added exactly. -/
theorem foldl_add_whole (hq : Sql.Decimal 0 q) (hqs : ∀ r ∈ qs, Sql.Decimal 0 r ∧ |r| ≤ b)
    (hbound : |q| + qs.length * b < 2 ^ 53) :
    qs.foldl (fun x r => x + ofRat r) (ofRat q) = ofRat (q + qs.sum) := by
  induction qs generalizing q with
  | nil => rw [List.foldl_nil, List.sum_nil, add_zero]
  | cons r qs ih =>
      obtain ⟨⟨hr, hrb⟩, hqs⟩ := List.forall_mem_cons.1 hqs
      obtain ⟨hfrom, hto⟩ := partial_sum_le (n := qs.length) q hrb
      rw [← List.length_cons (a := r)] at hfrom hto
      have hsmall : |r| < 2 ^ 53 := by
        have hb := (abs_nonneg r).trans hrb
        have hlength : b ≤ (r :: qs).length * b := by
          rw [List.length_cons]
          push_cast
          nlinarith [(qs.length.cast_nonneg : (0 : ℚ) ≤ qs.length)]
        linarith [abs_nonneg q]
      have hadd : ofRat q + ofRat r = ofRat (q + r) := by
        refine Double.ext ?_
        change nearest (nearest q + nearest r) = nearest (q + r)
        rw [nearest_of_whole hq (hfrom.trans_lt hbound), nearest_of_whole hr hsmall]
      rw [List.foldl_cons, hadd, ih (hq.add hr) hqs (hto.trans_lt hbound), List.sum_cons, add_assoc]

end Sums

end Double

/-! ### Numbers that are printed -/

/-- What a number prints of a value. -/
def printed (q : ℚ) : ℚ := (Double.ofRat q).toDecimal

theorem nearest_printed (q : ℚ) : nearest (printed q) = nearest q :=
  Double.nearest_toDecimal (Double.ofRat q)

theorem printed_congr {q r : ℚ} (h : nearest q = nearest r) : printed q = printed r :=
  congrArg Double.toDecimal (Double.ext h)

theorem printed_nearest (q : ℚ) : printed (nearest q) = printed q :=
  printed_congr (nearest_nearest q)

theorem printed_nonneg {q : ℚ} (h : 0 ≤ q) : 0 ≤ printed q :=
  Double.toDecimal_nonneg (nearest_nonneg h)

theorem printed_nonpos {q : ℚ} (h : q ≤ 0) : printed q ≤ 0 := by
  by_contra hpos
  -- a positive decimal is read as a number that is not negative, so the number is zero
  have hge : 0 ≤ nearest q := nearest_printed q ▸ nearest_nonneg (not_le.1 hpos).le
  have hzero : Double.ofRat q = 0 := Double.ext (le_antisymm (nearest_nonpos h) hge)
  refine hpos ?_
  rw [printed, hzero]
  decide +kernel

theorem printed_of_decimal {s : ℕ} {q : ℚ} (hs : s ≤ 300) (hq : Sql.Decimal s q)
    (h : |q| * 10 ^ s < 10 ^ 15) : printed q = q := Double.toDecimal_of_decimal hs hq h

/-- What is printed below a decimal of fifteen digits lies below it. -/
theorem lt_of_printed_lt {q b : ℚ} (hb : printed b = b) (hb₀ : 0 ≤ b) (h : printed q < b) :
    q < b := by
  by_contra hle
  rw [not_lt] at hle
  have hsame : nearest q = nearest b := by
    refine le_antisymm ?_ (nearest_mono hb₀ hle)
    rw [← nearest_printed q]
    exact nearest_mono (printed_nonneg (hb₀.trans hle)) h.le
  rw [printed_congr hsame, hb] at h
  exact h.false

end Js
