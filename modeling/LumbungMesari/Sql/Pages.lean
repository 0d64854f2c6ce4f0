import Mathlib.Data.List.Basic
import Mathlib.Data.List.Count
import Mathlib.Data.List.Nodup
import Mathlib.Data.List.Perm.Basic
import Mathlib.Order.Lattice

/-!
# Pages of ordered rows

`ORDER BY` leaves the order of tied rows open, and every query may settle it in its own way. A list
that is read page by page is cut from one list after another, so it shows every row once only if no
page ends among tied rows. Where one does, some order of the ties leaves a row out.
-/

namespace Sql

variable {α β : Type}

/-! ### Orders -/

/-- What `ORDER BY` compares rows by. Different rows can be tied. -/
structure OrderBy (α : Type) where
  le : α → α → Bool
  trans : ∀ {a b c}, le a b = true → le b c = true → le a c = true
  total : ∀ a b, le a b = true ∨ le b a = true

namespace OrderBy

/-- `ORDER BY` a value of the row. -/
def on (o : OrderBy β) (f : α → β) : OrderBy α where
  le a b := o.le (f a) (f b)
  trans := o.trans
  total a b := o.total (f a) (f b)

/-- `DESC` -/
def reverse (o : OrderBy α) : OrderBy α where
  le a b := o.le b a
  trans hab hbc := o.trans hbc hab
  total a b := o.total b a

/-- A null counts as greater than every value. -/
def nullsLast (o : OrderBy α) : OrderBy (Option α) where
  le a b := b.all fun b => a.any fun a => o.le a b
  trans := by
    intro a b c hab hbc
    cases c with
    | none => rfl
    | some c =>
        cases b with
        | none => cases hbc
        | some b =>
            cases a with
            | none => cases hab
            | some a => exact o.trans hab hbc
  total a b := by
    cases b with
    | none => exact .inl rfl
    | some b =>
        cases a with
        | none => exact .inr rfl
        | some a => exact o.total a b

/-- A second value for the rows that the first one ties. -/
def thenBy (o o' : OrderBy α) : OrderBy α where
  le a b := o.le a b && (!o.le b a || o'.le a b)
  trans := by
    intro a b c hab hbc
    simp only [Bool.and_eq_true, Bool.or_eq_true, Bool.not_eq_true'] at hab hbc ⊢
    refine ⟨o.trans hab.1 hbc.1, ?_⟩
    by_cases hca : o.le c a = true
    · have hba := o.trans hbc.1 hca
      have hcb := o.trans hca hab.1
      exact .inr (o'.trans (hab.2.resolve_left (by simp [hba])) (hbc.2.resolve_left (by simp [hcb])))
    · exact .inl (Bool.eq_false_iff.2 hca)
  total := by
    intro a b
    rcases o.total a b with hab | hba
    · by_cases hba : o.le b a = true
      · simpa [hab, hba] using o'.total a b
      · exact .inl (by simp [hab, hba])
    · by_cases hab : o.le a b = true
      · simpa [hab, hba] using o'.total a b
      · exact .inr (by simp [hab, hba])

/-- The second value orders the rows that the first one ties. -/
theorem le_of_thenBy {o o' : OrderBy α} {a b : α} (h : (o.thenBy o').le a b = true)
    (htied : o.le b a = true) : o'.le a b = true := by
  change (o.le a b && (!o.le b a || o'.le a b)) = true at h
  rw [htied, Bool.not_true, Bool.false_or, Bool.and_eq_true] at h
  exact h.2

/-- The order of the values themselves. -/
def ofLinearOrder (κ : Type) [LinearOrder κ] : OrderBy κ where
  le a b := decide (a ≤ b)
  trans hab hbc := decide_eq_true ((of_decide_eq_true hab).trans (of_decide_eq_true hbc))
  total a b := (le_total a b).imp decide_eq_true decide_eq_true

variable (o : OrderBy α)

theorem refl (a : α) : o.le a a = true := (o.total a a).elim id id

/-- The rows, in an order that `ORDER BY` allows. -/
structure Lists (rows xs : List α) : Prop where
  perm : xs.Perm rows
  sorted : xs.Pairwise fun a b => o.le a b = true

theorem lists_mergeSort (rows : List α) : o.Lists rows (rows.mergeSort o.le) := by
  have htrans : ∀ a b c, o.le a b = true → o.le b c = true → o.le a c = true := fun _ _ _ => o.trans
  have htotal : ∀ a b, (o.le a b || o.le b a) = true := by simpa using o.total
  exact ⟨List.mergeSort_perm _ _, List.pairwise_mergeSort htrans htotal rows⟩

/-! ### Positions -/

/-- How many rows come before a row and its ties. -/
def before (rows : List α) (a : α) : ℕ := rows.countP fun b => !o.le a b

/-- How many rows come before a row and its ties, or are among them. -/
def upTo (rows : List α) (a : α) : ℕ := rows.countP fun b => o.le b a

/-- The first `i` rows are cut off among the ties of a row. -/
def Straddles (rows : List α) (a : α) (i : ℕ) : Prop := o.before rows a < i ∧ i < o.upTo rows a

instance (rows : List α) (a : α) (i : ℕ) : Decidable (o.Straddles rows a i) :=
  inferInstanceAs (Decidable (_ ∧ _))

variable {o} {rows xs ys : List α} {a b : α} {i : ℕ}

/-- A sorted list begins with the rows of a property that holds of all smaller rows as well. -/
theorem take_countP {p : α → Bool} (hp : ∀ a b, o.le a b = true → p b = true → p a = true)
    (hxs : xs.Pairwise fun a b => o.le a b = true) : xs.take (xs.countP p) = xs.filter p := by
  induction xs with
  | nil => rfl
  | cons x xs ih =>
      rw [List.pairwise_cons] at hxs
      by_cases hx : p x = true
      · rw [List.countP_cons_of_pos hx, List.take_succ_cons, ih hxs.2, List.filter_cons_of_pos hx]
      · have hnone : ∀ y ∈ x :: xs, ¬ p y = true := by
          rw [List.forall_mem_cons]
          exact ⟨hx, fun y hy hpy => hx (hp x y (hxs.1 y hy) hpy)⟩
        rw [List.countP_eq_zero.2 hnone, List.take_zero, List.filter_eq_nil_iff.2 hnone]

theorem Lists.take_upTo (h : o.Lists rows xs) :
    xs.take (o.upTo rows a) = xs.filter fun b => o.le b a := by
  rw [upTo, ← h.perm.countP_eq]
  exact take_countP (fun _ _ => o.trans) h.sorted

theorem Lists.take_before (h : o.Lists rows xs) :
    xs.take (o.before rows a) = xs.filter fun b => !o.le a b := by
  rw [before, ← h.perm.countP_eq]
  refine take_countP (o := o) (fun x y hxy hy => ?_) h.sorted
  rw [Bool.not_eq_true'] at hy ⊢
  exact Bool.eq_false_iff.2 fun hax => Bool.false_ne_true (hy.symm.trans (o.trans hax hxy))

section Count

variable [DecidableEq α]

/-- How often a row is among the first `i` ones, where they are not cut off among its ties. -/
def counted (o : OrderBy α) (rows : List α) (a : α) (i : ℕ) : ℕ :=
  if o.upTo rows a ≤ i then rows.count a else 0

theorem Lists.count_take (h : o.Lists rows xs) (hcut : ¬ o.Straddles rows a i) :
    (xs.take i).count a = o.counted rows a i := by
  unfold counted
  split
  · rename_i hle
    have hall : (xs.take (o.upTo rows a)).count a = rows.count a := by
      rw [h.take_upTo, List.count_filter (p := fun b => o.le b a) (o.refl a), h.perm.count_eq]
    have hsome : (xs.take i).count a ≤ rows.count a := by
      rw [← h.perm.count_eq]
      exact (List.take_sublist i xs).count_le a
    have hmore := (List.take_sublist_take_left (l := xs) hle).count_le a
    omega
  · rename_i hlt
    have hle : i ≤ o.before rows a := Nat.le_of_not_lt fun hbefore =>
      hcut ⟨hbefore, Nat.lt_of_not_le hlt⟩
    refine List.count_eq_zero.2 fun ha => ?_
    have hmem := List.take_subset_take_left xs hle ha
    rw [h.take_before, List.mem_filter, o.refl] at hmem
    exact Bool.false_ne_true hmem.2

end Count

/-- Rows before a place that does not come after theirs in another list are not greater. -/
theorem Lists.le_of_cut (hxs : o.Lists rows xs) (hys : o.Lists rows ys) (ha : a ∈ xs.take i)
    (hb : b ∈ ys.drop i) : o.le a b = true := by
  have hcut : ∀ c ∈ ys.take i, o.le c b = true := by
    have hsorted := hys.sorted
    rw [← List.take_append_drop i ys, List.pairwise_append] at hsorted
    exact fun c hc => hsorted.2.2 c hc b hb
  have hle : i ≤ o.upTo rows b := by
    have hlength : i < ys.length := by
      have hpos := List.length_pos_of_mem hb
      rw [List.length_drop] at hpos
      omega
    have hall : (ys.take i).countP (fun c => o.le c b) = i := by
      rw [List.countP_eq_length.2 hcut, List.length_take, Nat.min_eq_left (Nat.le_of_lt hlength)]
    have hsub : (ys.take i).countP (fun c => o.le c b) ≤ ys.countP fun c => o.le c b :=
      (List.take_sublist i ys).countP_le
    rw [upTo, ← hys.perm.countP_eq]
    omega
  have hmem := List.take_subset_take_left xs hle ha
  rw [hxs.take_upTo, List.mem_filter] at hmem
  exact hmem.2

/-- A row can be listed anywhere among its ties: after the rows of a property that holds of all the
smaller ones, and of none of the greater ones. -/
theorem lists_insert (hnodup : rows.Nodup) (ha : a ∈ rows) {p : α → Bool}
    (hbefore : ∀ b, p b = true → o.le b a = true) (hafter : ∀ b, p b = false → o.le a b = true) :
    ∃ front back, o.Lists rows (front ++ a :: back) ∧ a ∉ front ∧ a ∉ back ∧
      front.length = if p a then rows.countP p - 1 else rows.countP p := by
  classical
  have hrest := o.lists_mergeSort (rows.erase a)
  have hmem : ∀ {q : α → Bool}, a ∉ ((rows.erase a).mergeSort o.le).filter q := by
    intro q hmem
    exact hnodup.not_mem_erase (hrest.perm.mem_iff.1 (List.mem_of_mem_filter hmem))
  refine ⟨((rows.erase a).mergeSort o.le).filter p, ((rows.erase a).mergeSort o.le).filter (!p ·),
    ⟨?_, ?_⟩, hmem, hmem, ?_⟩
  · refine List.perm_middle.trans (.trans (.cons a ?_) (List.perm_cons_erase ha).symm)
    exact (List.filter_append_perm p _).trans hrest.perm
  · have hback : ∀ b ∈ ((rows.erase a).mergeSort o.le).filter (!p ·), o.le a b = true := by
      intro b hb
      have hnot := (List.mem_filter.1 hb).2
      exact hafter b (by simpa using hnot)
    rw [List.pairwise_append, List.pairwise_cons]
    refine ⟨hrest.sorted.filter p, ⟨hback, hrest.sorted.filter _⟩, fun b hb c hc => ?_⟩
    have hba := hbefore b (List.mem_filter.1 hb).2
    rcases List.mem_cons.1 hc with rfl | hc
    · exact hba
    · exact o.trans hba (hback c hc)
  · rw [← List.countP_eq_length_filter, hrest.perm.countP_eq, List.countP_erase]
    by_cases hpa : p a = true
    · simp [ha, hpa]
    · simp [hpa]

/-- A row can be listed behind a place that cuts off its ties. -/
theorem exists_lists_notMem_take (hnodup : rows.Nodup) (ha : a ∈ rows) (hi : i < o.upTo rows a) :
    ∃ xs, o.Lists rows xs ∧ a ∉ xs.take i := by
  obtain ⟨front, back, hlists, hfront, -, hlength⟩ :=
    lists_insert (o := o) (p := fun b => o.le b a) hnodup ha (fun _ => id)
      fun b hb => (o.total a b).resolve_right (by simp [hb])
  rw [if_pos (o.refl a)] at hlength
  refine ⟨_, hlists, ?_⟩
  rw [upTo] at hi
  rw [List.take_append_of_le_length (by omega)]
  exact fun hmem => hfront (List.mem_of_mem_take hmem)

/-- A row can be listed before a place that cuts off its ties. -/
theorem exists_lists_notMem_drop (hnodup : rows.Nodup) (ha : a ∈ rows) (hi : o.before rows a < i) :
    ∃ xs, o.Lists rows xs ∧ a ∉ xs.drop i := by
  obtain ⟨front, back, hlists, -, hback, hlength⟩ :=
    lists_insert (o := o) (p := fun b => !o.le a b) hnodup ha
      (fun b hb => (o.total a b).resolve_left (by simpa using hb)) fun b hb => by simpa using hb
  rw [if_neg (by simp [o.refl a])] at hlength
  refine ⟨_, hlists, ?_⟩
  rw [before] at hi
  have hsplit : front ++ a :: back = (front ++ [a]) ++ back := by simp
  rw [hsplit, List.drop_append, List.drop_eq_nil_of_le (by simp; omega), List.nil_append]
  exact fun hmem => hback (List.mem_of_mem_drop hmem)

end OrderBy

/-! ### Pages -/

/-- `LIMIT limit OFFSET k * limit` -/
def page (xs : List α) (limit k : ℕ) : List α := (xs.drop (k * limit)).take limit

/-- The pages from one on, each cut from a list of its own. -/
def pages (list : ℕ → List α) (limit : ℕ) : ℕ → ℕ → List α
  | _, 0 => []
  | k, n + 1 => page (list k) limit k ++ pages list limit (k + 1) n

variable {o : OrderBy α} {rows xs : List α} {list : ℕ → List α} {limit k n : ℕ} {a : α}

theorem take_succ_mul (xs : List α) (limit k : ℕ) :
    xs.take ((k + 1) * limit) = xs.take (k * limit) ++ page xs limit k := by
  rw [Nat.succ_mul, List.take_add, page]

theorem page_eq_nil (h : xs.length ≤ k * limit) : page xs limit k = [] := by
  rw [page, List.drop_eq_nil_of_le h, List.take_nil]

theorem mem_pages : a ∈ pages list limit k n ↔ ∃ j, k ≤ j ∧ j < k + n ∧ a ∈ page (list j) limit j := by
  induction n generalizing k with
  | zero =>
      simp only [pages, List.not_mem_nil, false_iff]
      omega
  | succ n ih =>
      rw [pages, List.mem_append, ih]
      constructor
      · rintro (ha | ⟨j, hkj, hjn, ha⟩)
        · exact ⟨k, by omega, by omega, ha⟩
        · exact ⟨j, by omega, by omega, ha⟩
      · rintro ⟨j, hkj, hjn, ha⟩
        rcases Nat.eq_or_lt_of_le hkj with rfl | hlt
        · exact .inl ha
        · exact .inr ⟨j, by omega, by omega, ha⟩

theorem mem_take_of_mem_page (h : a ∈ page xs limit k) : a ∈ xs.take ((k + 1) * limit) := by
  rw [take_succ_mul]
  exact List.mem_append_right _ h

theorem mem_drop_of_mem_page (h : a ∈ page xs limit k) : a ∈ xs.drop (k * limit) :=
  List.mem_of_mem_take h

/-- The pages are in order, whatever order of the ties each of them is cut from. -/
theorem sorted_pages (hlist : ∀ j, o.Lists rows (list j)) :
    (pages list limit k n).Pairwise fun a b => o.le a b = true := by
  induction n generalizing k with
  | zero => exact .nil
  | succ n ih =>
      rw [pages, List.pairwise_append]
      refine ⟨(hlist k).sorted.sublist ((List.take_sublist _ _).trans (List.drop_sublist _ _)), ih,
        fun a ha b hb => ?_⟩
      obtain ⟨j, hkj, -, hb⟩ := mem_pages.1 hb
      -- The place between the pages is at the end of the first one.
      have hplace : (k + 1) * limit ≤ j * limit := Nat.mul_le_mul_right limit hkj
      refine (hlist k).le_of_cut (hlist j) (mem_take_of_mem_page ha) ?_
      exact (List.drop_sublist_drop_left _ hplace).subset (mem_drop_of_mem_page hb)

/-- How often the pages show a row, where no page ends among its ties. -/
theorem count_pages [DecidableEq α] (hlist : ∀ j, o.Lists rows (list j))
    (hcut : ∀ j, ¬ o.Straddles rows a (j * limit)) :
    (pages list limit k n).count a + o.counted rows a (k * limit) =
      o.counted rows a ((k + n) * limit) := by
  induction n generalizing k with
  | zero => simp [pages]
  | succ n ih =>
      have hpage := take_succ_mul (list k) limit k
      have hcount := congrArg (List.count a) hpage
      rw [List.count_append, (hlist k).count_take (hcut k), (hlist k).count_take (hcut (k + 1))]
        at hcount
      have hrest := ih (k := k + 1)
      rw [pages, List.count_append, ← Nat.add_assoc k n 1, Nat.add_right_comm k n 1, ← hrest]
      omega

/-- Where no page ends among the ties of the rows of a property, the pages show each of these rows
once. -/
theorem filter_pages_perm (hlist : ∀ j, o.Lists rows (list j)) (hn : rows.length ≤ n * limit)
    {p : α → Bool} (hcut : ∀ a ∈ rows, p a = true → ∀ j, ¬ o.Straddles rows a (j * limit)) :
    ((pages list limit 0 n).filter p).Perm (rows.filter p) := by
  classical
  rw [List.perm_iff_count]
  intro a
  by_cases hpa : p a = true
  · rw [List.count_filter hpa, List.count_filter hpa]
    by_cases ha : a ∈ rows
    · have hcount := count_pages (k := 0) (n := n) hlist (hcut a ha hpa)
      have hstart : o.counted rows a (0 * limit) = 0 := by
        rw [OrderBy.counted, if_neg]
        have hpos : 0 < o.upTo rows a := List.countP_pos_iff.2 ⟨a, ha, o.refl a⟩
        omega
      have hend : o.counted rows a ((0 + n) * limit) = rows.count a := by
        rw [OrderBy.counted, if_pos]
        rw [Nat.zero_add]
        exact Nat.le_trans List.countP_le_length hn
      omega
    · rw [List.count_eq_zero.2 ha, List.count_eq_zero]
      intro hmem
      obtain ⟨j, -, -, hj⟩ := mem_pages.1 hmem
      exact ha ((hlist j).perm.mem_iff.1 (List.mem_of_mem_drop (mem_drop_of_mem_page hj)))
  · rw [List.count_eq_zero.2, List.count_eq_zero.2] <;> simp [hpa]

/-- Where a page ends among the ties of a row, the pages can leave it out. -/
theorem exists_notMem_pages (hnodup : rows.Nodup) (ha : a ∈ rows) {j : ℕ}
    (hcut : o.Straddles rows a (j * limit)) :
    ∃ list, (∀ i, o.Lists rows (list i)) ∧ ∀ k n, a ∉ pages list limit k n := by
  obtain ⟨late, hlate, htake⟩ := OrderBy.exists_lists_notMem_take hnodup ha hcut.2
  obtain ⟨early, hearly, hdrop⟩ := OrderBy.exists_lists_notMem_drop hnodup ha hcut.1
  refine ⟨fun i => if i < j then late else early, fun i => ?_, fun k n hmem => ?_⟩
  · dsimp only
    split <;> assumption
  · obtain ⟨i, -, -, hmem⟩ := mem_pages.1 hmem
    by_cases hij : i < j
    · rw [if_pos hij] at hmem
      have hplace : (i + 1) * limit ≤ j * limit := Nat.mul_le_mul_right limit hij
      exact htake (List.take_subset_take_left _ hplace (mem_take_of_mem_page hmem))
    · rw [if_neg hij] at hmem
      have hplace : j * limit ≤ i * limit := Nat.mul_le_mul_right limit (Nat.le_of_not_lt hij)
      exact hdrop ((List.drop_sublist_drop_left _ hplace).subset (mem_drop_of_mem_page hmem))

/-- The pages show each row of a property once, whatever order of the ties each of them is cut from,
exactly when none of them ends among the ties of such a row. -/
theorem filter_pages_perm_iff (hnodup : rows.Nodup) (hn : rows.length ≤ n * limit) {p : α → Bool} :
    (∀ list, (∀ j, o.Lists rows (list j)) →
      ((pages list limit 0 n).filter p).Perm (rows.filter p)) ↔
    ∀ a ∈ rows, p a = true → ∀ j, ¬ o.Straddles rows a (j * limit) := by
  refine ⟨fun hperm a ha hpa j hcut => ?_, fun hcut list hlist => filter_pages_perm hlist hn hcut⟩
  obtain ⟨list, hlist, hnone⟩ := exists_notMem_pages hnodup ha hcut
  have hmem := (hperm list hlist).mem_iff.2 (List.mem_filter.2 ⟨ha, hpa⟩)
  exact hnone 0 n (List.mem_of_mem_filter hmem)

/-- A single page does not end among ties. -/
theorem not_straddles_of_length_le (h : rows.length ≤ limit) (a : α) (j : ℕ) :
    ¬ o.Straddles rows a (j * limit) := by
  rintro ⟨hbefore, hupTo⟩
  have hle : o.upTo rows a ≤ rows.length := List.countP_le_length
  rcases Nat.eq_zero_or_pos j with rfl | hj
  · omega
  · have hone : limit ≤ j * limit := Nat.le_mul_of_pos_left limit hj
    omega

/-- Neither does any page end among the ties of a row that is tied with no other. -/
theorem not_straddles_of_untied (hnodup : rows.Nodup)
    (huntied : ∀ b ∈ rows, o.le a b = true → o.le b a = true → b = a) (i : ℕ) :
    ¬ o.Straddles rows a i := by
  classical
  have hothers : (rows.erase a).countP (fun b => o.le b a) ≤
      (rows.erase a).countP fun b => !o.le a b := by
    refine List.countP_mono_left fun b hb hba => ?_
    rw [hnodup.mem_erase_iff] at hb
    rw [Bool.not_eq_true']
    exact Bool.eq_false_iff.2 fun hab => hb.1 (huntied b hb.2 hab hba)
  have hfewer : ((rows.erase a).countP fun b => !o.le a b) ≤ o.before rows a :=
    List.erase_sublist.countP_le
  rw [List.countP_erase] at hothers
  rintro ⟨hbefore, hupTo⟩
  rw [OrderBy.upTo] at hupTo
  split at hothers <;> omega

theorem pages_perm (hlist : ∀ j, o.Lists rows (list j)) (hn : rows.length ≤ n * limit)
    (hcut : ∀ a ∈ rows, ∀ j, ¬ o.Straddles rows a (j * limit)) :
    (pages list limit 0 n).Perm rows := by
  simpa using filter_pages_perm (p := fun _ => true) hlist hn fun a ha _ => hcut a ha

theorem pages_perm_iff (hnodup : rows.Nodup) (hn : rows.length ≤ n * limit) :
    (∀ list, (∀ j, o.Lists rows (list j)) → (pages list limit 0 n).Perm rows) ↔
      ∀ a ∈ rows, ∀ j, ¬ o.Straddles rows a (j * limit) := by
  simpa using filter_pages_perm_iff (o := o) (p := fun _ => true) hnodup hn

theorem pages_eq_nil (hlength : ∀ j, (list j).length ≤ k * limit) : pages list limit k n = [] := by
  induction n generalizing k with
  | zero => rfl
  | succ n ih =>
      have hmore : k * limit ≤ (k + 1) * limit := Nat.mul_le_mul_right limit (Nat.le_succ k)
      rw [pages, page_eq_nil (hlength k), ih fun j => Nat.le_trans (hlength j) hmore,
        List.append_nil]

theorem pages_eq_of_le {m : ℕ} (hlength : ∀ j, (list j).length ≤ (k + n) * limit) (h : n ≤ m) :
    pages list limit k m = pages list limit k n := by
  induction n generalizing k m with
  | zero => exact pages_eq_nil hlength
  | succ n ih =>
      obtain ⟨m, rfl⟩ := Nat.exists_eq_add_of_le' (Nat.lt_of_lt_of_le (Nat.succ_pos n) h)
      rw [pages, pages, ih (fun j => ?_) (Nat.le_of_succ_le_succ h)]
      rw [Nat.add_right_comm, Nat.add_assoc]
      exact hlength j

theorem pages_const (hlength : xs.length ≤ n * limit) : pages (fun _ => xs) limit 0 n = xs := by
  have hdrop : ∀ k, pages (fun _ => xs) limit k n = (xs.drop (k * limit)).take (n * limit) := by
    intro k
    clear hlength
    induction n generalizing k with
    | zero => rw [Nat.zero_mul, List.take_zero, pages]
    | succ n ih =>
        rw [pages, ih, page, Nat.succ_mul n, Nat.add_comm (n * limit), List.take_add, List.drop_drop,
          Nat.succ_mul]
  rw [hdrop, Nat.zero_mul, List.drop_zero, List.take_of_length_le hlength]

theorem pages_eq_flatMap (list : ℕ → List α) (limit k n : ℕ) : pages list limit k n =
    (List.range' (k + 1) n).flatMap fun number => page (list (number - 1)) limit (number - 1) := by
  induction n generalizing k with
  | zero => rfl
  | succ n ih =>
      rw [pages, ih, List.range'_succ, List.flatMap_cons, Nat.add_sub_cancel]

/-! ### Plans -/

/-- How the ties are settled: the order of the rows in the query for each page. -/
structure Plan (o : OrderBy α) where
  list : ℕ → List α → List α
  lists : ∀ number rows, o.Lists rows (list number rows)

/-- The order of the ties is the same for every page. -/
def Plan.sorted (o : OrderBy α) : Plan o where
  list _ rows := rows.mergeSort o.le
  lists _ := o.lists_mergeSort

/-- The first pages of some rows can be cut from all lists that are allowed. -/
theorem exists_plan (hlist : ∀ j, o.Lists rows (list j)) :
    ∃ plan : Plan o, (fun j => plan.list (j + 1) rows) = list := by
  classical
  refine ⟨⟨fun number xs => if xs = rows then list (number - 1) else xs.mergeSort o.le,
    fun number xs => ?_⟩, funext fun j => ?_⟩
  · split
    · rename_i hrows
      rw [hrows]
      exact hlist (number - 1)
    · exact o.lists_mergeSort xs
  · exact if_pos rfl

end Sql
