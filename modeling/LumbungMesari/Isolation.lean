import LumbungMesari.Sql.Faults
import LumbungMesari.OverdueRuns
import LumbungMesari.PenaltyRuns
import Mathlib.Data.List.TakeWhile

/-!
# The loans of one overdue run

Every loan has its own transaction, and what it does depends on that loan alone. But the first error
ends the run, so the loans after it are left as they are until the next month.
-/

namespace LumbungMesari

open Sql

/-! ### Runs with database errors -/

/-- The transaction of a loan. `faults` says for which loans a statement fails: which one, and with
what error. -/
def processLoanWith (faults : Uuid → Option (ℕ × Error)) (r : Installment) : Program Unit :=
  match faults r.loanId with
  | none => processLoanOverdueInstallments r.loanId r
  | some (n, e) => (processLoanOverdueInstallments r.loanId r).failAt e n

def processLoansWith (faults : Uuid → Option (ℕ × Error)) : List Installment → Program Unit
  | [] => pure ()
  | r :: rs => do
      processLoanWith faults r
      processLoansWith faults rs

def processOverdueInstallmentsWith (faults : Uuid → Option (ℕ × Error)) (now : Date) :
    Program Unit := do
  let overdueInstallments ← findOverdueInstallments (now.setDate 20)
  processLoansWith faults (firstByLoan overdueInstallments)

theorem processLoansWith_none (rs : List Installment) :
    processLoansWith (fun _ => none) rs = processLoans rs := by
  induction rs with
  | nil => rfl
  | cons r rs ih => rw [processLoansWith, processLoans, ih, processLoanWith]

theorem processOverdueInstallmentsWith_none (now : Date) :
    processOverdueInstallmentsWith (fun _ => none) now = processOverdueInstallments now := by
  rw [processOverdueInstallmentsWith, processOverdueInstallments]
  exact congrArg _ (funext fun rs => processLoansWith_none _)

/-! ### What a transaction reads -/

def Database.installmentsOf (d : Database) (loanId : Uuid) : List Installment :=
  (d.rows .installments).filter fun i => i.loanId = loanId

variable {d d' e : Database} {loanId : Uuid} {r : Installment} {rs : List Installment}
  {faults : Uuid → Option (ℕ × Error)}

theorem mem_installmentsOf : r ∈ d.installmentsOf loanId ↔
    d.find .installments r.id = some r ∧ r.loanId = loanId := by
  rw [Database.installmentsOf, List.mem_filter, decide_eq_true_eq]
  refine and_congr_left fun _ => ⟨fun hr => ?_, fun hfind => (Table.find?_some hfind).1⟩
  show (d.table .installments).find? (Row.id .installments r) = some r
  exact Table.find?_of_mem hr

theorem installmentsOf_eq_map (d : Database) (loanId : Uuid) :
    d.installmentsOf loanId = (d.file loanId).installments.map Prod.fst := by
  rw [Database.file, List.map_map]
  exact (List.map_id _).symm

/-- Two states have one loan with the same installments. -/
structure Alike (loanId : Uuid) (d e : Database) : Prop where
  loan : d.loanWithPeriod loanId = e.loanWithPeriod loanId
  installments : d.installmentsOf loanId = e.installmentsOf loanId

namespace Alike

theorem symm (h : Alike loanId d e) : Alike loanId e d := ⟨h.loan.symm, h.installments.symm⟩

theorem trans (h : Alike loanId d d') (h' : Alike loanId d' e) : Alike loanId d e :=
  ⟨h.loan.trans h'.loan, h.installments.trans h'.installments⟩

theorem of_file (h : d.file loanId = e.file loanId) : Alike loanId d e :=
  ⟨congrArg LoanFile.loan h, by rw [installmentsOf_eq_map, installmentsOf_eq_map, h]⟩

theorem find (h : Alike loanId d e) (hfound : d.find .installments r.id = some r)
    (hloan : r.loanId = loanId) : e.find .installments r.id = some r := by
  have hmem := mem_installmentsOf.2 ⟨hfound, hloan⟩
  rw [h.installments] at hmem
  exact (mem_installmentsOf.1 hmem).1

theorem update (h : Alike loanId d e) (hfound : d.find .installments r.id = some r)
    (hloan : r.loanId = loanId) (new : Installment) (hid : new.id = r.id)
    (hloan' : new.loanId = r.loanId) :
    Alike loanId (d.apply (.update .installments new)) (e.apply (.update .installments new)) := by
  refine ⟨h.loan, ?_⟩
  have hrewrite : ∀ {d : Database}, d.find .installments r.id = some r →
      (d.apply (.update .installments new)).installmentsOf loanId =
        (d.installmentsOf loanId).map fun i => if i.id = new.id then new else i := by
    intro d hfound
    rw [installmentsOf_eq_map, file_updateInstallment new hfound hid hloan', installmentsOf_eq_map,
      LoanFile.rewrite, List.map_map, List.map_map]
    refine List.map_congr_left fun x _ => ?_
    simp only [Function.comp_apply]
    split <;> rfl
  rw [hrewrite hfound, hrewrite (h.find hfound hloan), h.installments]

theorem overdueCount (h : Alike loanId d e) : d.overdueCount loanId = e.overdueCount loanId := by
  have hcount : ∀ d : Database, d.overdueCount loanId =
      (d.installmentsOf loanId).countP fun r => r.status = .overdue := by
    intro d
    rw [Database.overdueCount, Database.installmentsOf, List.countP_filter]
    refine List.countP_congr fun r _ => ?_
    simp [and_comm]
  rw [hcount, hcount, h.installments]

theorem oldestUnpenalized (h : Alike loanId d e) :
    d.oldestUnpenalized loanId = e.oldestUnpenalized loanId := by
  have hfilter : ∀ d : Database, ((d.rows .installments).filter fun r =>
      r.loanId = loanId && r.status = .overdue && r.penaltyAmount.units = 0) =
      (d.installmentsOf loanId).filter fun r => r.status = .overdue && r.penaltyAmount.units = 0 := by
    intro d
    rw [Database.installmentsOf, List.filter_filter]
    refine List.filter_congr fun r _ => ?_
    rw [Bool.and_assoc, Bool.and_comm]
  rw [Database.oldestUnpenalized, hfilter, h.installments, ← hfilter, Database.oldestUnpenalized]

end Alike

/-! ### Two runs of a transaction -/

section Coupling

variable {S : Database → Database → Prop} {α β : Type} {s s' : Trx}

theorem coupled_selectOnPool {read : Database → β} {f : β → Program α} {b : β} (hread : read d = b)
    (hread' : read e = b) (h : (f b).Coupled S d s e s') :
    (Prog.onPool (select read) >>= f).Coupled S d s e s' := by
  subst hread
  exact ⟨read d, rfl, by rw [← hread']; rfl, h⟩

theorem coupled_select {read : Database → β} {f : β → Program α} {b : β}
    (hread : read (s.view d) = b) (hread' : read (s'.view e) = b)
    (h : (f b).Coupled S d s e s') : (Prog.inTrx (select read) >>= f).Coupled S d s e s' := by
  subst hread
  refine .inr ⟨[], [], read (s.view d), rfl, by rw [← hread']; rfl, ?_⟩
  have hlocks : ∀ d, (select read).locks d = [] := fun _ => rfl
  rwa [hlocks, hlocks, extend_nil, extend_nil]

theorem updateRow_installments_eq {old new : Installment} (d : Database)
    (hrefs : Row.references .installments new = Row.references .installments old) :
    updateRow d .installments old new = .ok [.update .installments new] := by
  have hnone : newReferences .installments old new = [] := by
    rw [newReferences, hrefs, List.filter_eq_nil_iff]
    intro ref href
    simp [href]
  rw [updateRow, hnone]
  rfl

theorem coupled_updateInstallment {label : Label} {set : Installment → Except Error Installment}
    {f : Option Installment → Program α} (hfound : (s.view d).find .installments r.id = some r)
    (hfound' : (s'.view e).find .installments r.id = some r)
    (hrefs : ∀ new, set r = .ok new →
      Row.references .installments new = Row.references .installments r)
    (h : ∀ new l l', set r = .ok new → (f (some new)).Coupled S d
      (s.extend [.update .installments new] l) e (s'.extend [.update .installments new] l')) :
    (Prog.inTrx (updateById label .installments r.id set) >>= f).Coupled S d s e s' := by
  have hexec : ∀ {v : Database}, v.find .installments r.id = some r →
      (updateById label .installments r.id set).exec v =
        set r >>= fun new => .ok ([.update .installments new], some new) := by
    intro v hv
    simp only [updateById, statement, hv]
    cases hset : set r with
    | error => rfl
    | ok new =>
        change (updateRow v .installments r new >>= _) = _
        rw [updateRow_installments_eq v (hrefs new hset)]
        rfl
  rw [Prog.coupled_inTrx, hexec hfound, hexec hfound']
  cases hset : set r with
  | error e' => exact .inl ⟨e', rfl, rfl⟩
  | ok new => exact .inr ⟨_, _, _, rfl, rfl, h new _ _ hset⟩

/-- A transaction only depends on its own loan. -/
theorem processLoan_coupled (h : Alike r.loanId d e) (hfound : d.find .installments r.id = some r) :
    (processLoanOverdueInstallments r.loanId r).Coupled (Alike r.loanId) d .idle e .idle := by
  have hmarked : Alike r.loanId (marking r d) (marking r e) :=
    h.update hfound rfl (r.setStatus .overdue) rfl rfl
  refine coupled_selectOnPool rfl h.loan.symm ?_
  split
  · trivial
  rename_i loan loanPeriod hloan
  refine coupled_select rfl h.overdueCount.symm ?_
  refine coupled_updateInstallment hfound (h.find hfound rfl) ?_ fun new l l' hset => ?_
  · rintro new ⟨⟩
    rfl
  cases hset
  change Prog.Coupled _ (if 2 ≤ d.overdueCount r.loanId + 1 then _ else _) _ _ _ _
  split
  · refine coupled_select rfl hmarked.oldestUnpenalized.symm ?_
    split
    · exact ⟨hmarked, trivial⟩
    rename_i oldest hpicked
    obtain ⟨hfoundOldest, hloanOldest, -⟩ := oldestUnpenalized_some hpicked
    have hfoundOldest' := hmarked.find hfoundOldest hloanOldest
    refine coupled_select hfoundOldest hfoundOldest' ?_
    refine coupled_updateInstallment hfoundOldest hfoundOldest' ?_ fun new l l' hset => ?_
    · intro new hset
      obtain ⟨_, _, -, -, rfl⟩ := penalized_ok hset
      rfl
    · refine ⟨?_, trivial⟩
      rw [Session.view_extend, Session.view_extend]
      obtain ⟨hid, hloanNew⟩ : new.id = oldest.id ∧ new.loanId = oldest.loanId := by
        obtain ⟨_, _, -, -, rfl⟩ := penalized_ok hset
        exact ⟨rfl, rfl⟩
      exact hmarked.update hfoundOldest hloanOldest new hid hloanNew
  · exact ⟨hmarked, trivial⟩

theorem processLoan_atomic (loanId : Uuid) (r : Installment) :
    (processLoanOverdueInstallments loanId r).Atomic := by
  refine ⟨fun _ _ _ h => by cases h; simp, fun x => ?_⟩
  cases x with
  | none => trivial
  | some x =>
      intro count updated
      cases updated with
      | none => trivial
      | some new =>
          change Prog.Atomic (if 2 ≤ count + 1 then _ else _)
          split
          · intro oldest
            cases oldest with
            | none => exact ⟨(), rfl⟩
            | some oldest =>
                intro current
                cases current with
                | none => trivial
                | some current => exact fun _ => ⟨(), rfl⟩
          · exact ⟨(), rfl⟩

theorem processLoanWith_coupled (h : Alike r.loanId d e)
    (hfound : d.find .installments r.id = some r) :
    (processLoanWith faults r).Coupled (Alike r.loanId) d .idle e .idle := by
  rw [processLoanWith]
  split
  · exact processLoan_coupled h hfound
  · exact (processLoan_coupled h hfound).failAt _ _

theorem processLoanWith_atomic (r : Installment) : (processLoanWith faults r).Atomic := by
  rw [processLoanWith]
  split
  · exact processLoan_atomic _ _
  · exact (processLoan_atomic _ _).failAt _ _

theorem processLoanWith_ok {s' : Trx}
    (h : (processLoanWith faults r).Returns d .idle () d' s') :
    (processLoanOverdueInstallments r.loanId r).Returns d .idle () d' s' := by
  rw [processLoanWith] at h
  split at h
  · exact h
  · exact h.of_failAt

end Coupling

/-! ### Runs over a work list -/

theorem takeWhile_congr {α : Type} {p q : α → Bool} {xs : List α} (h : ∀ x ∈ xs, p x = q x) :
    xs.takeWhile p = xs.takeWhile q := by
  induction xs with
  | nil => rfl
  | cons x xs ih =>
      obtain ⟨hx, hxs⟩ := List.forall_mem_cons.1 h
      rw [List.takeWhile_cons, List.takeWhile_cons, hx, ih hxs]

/-- The transaction of a loan returns. -/
def Database.returns (d : Database) (faults : Uuid → Option (ℕ × Error)) (r : Installment) : Bool :=
  ((processLoanWith faults r).result d).isOk

theorem Alike.returns (h : Alike r.loanId d e) (hfound : d.find .installments r.id = some r) :
    d.returns faults r = e.returns faults r := by
  rw [Database.returns, Database.returns, ((processLoanWith_coupled h hfound).result h).1]

theorem Alike.processLoanWith (h : Alike r.loanId d e)
    (hfound : d.find .installments r.id = some r) :
    Alike r.loanId ((processLoanWith faults r).after d) ((processLoanWith faults r).after e) :=
  ((processLoanWith_coupled h hfound).result h).2

theorem processLoanWith_charged (hfound : d.find .installments r.id = some r)
    (hreturns : d.returns faults r = true) :
    ∃ d', (processLoanWith faults r).Returns d .idle () d' .idle ∧ Charged r d d' := by
  obtain ⟨⟨⟩, d', s', h⟩ := Prog.exists_returns_of_isOk hreturns
  have hwp : (processLoanOverdueInstallments r.loanId r).wp (Prog.alone fun _ _ => True)
      (fun _ d' s' => s' = .idle ∧ Charged r d d') d .idle :=
    processLoan_alone hfound fun d' hcharged => ⟨trivial, rfl, hcharged⟩
  obtain ⟨rfl, hcharged⟩ := (processLoanWith_ok h).of_wp hwp
  exact ⟨d', h, hcharged⟩

theorem processLoansWith_of_error (hreturns : d.returns faults r = false) (rs : List Installment) :
    (processLoansWith faults (r :: rs)).after d = d := by
  rw [Database.returns] at hreturns
  cases hresult : (processLoanWith faults r).result d with
  | ok =>
      rw [hresult] at hreturns
      cases hreturns
  | error e =>
      exact (Prog.after_bind_of_error hresult _).trans
        ((processLoanWith_atomic r).after_of_error hresult)

/-- A run works on the loans before the first one whose transaction fails, and leaves each as its
transaction alone would. -/
theorem processLoansWith_alike (h : Listed d rs) (loanId : Uuid) :
    ((∀ r ∈ rs.takeWhile (d.returns faults), r.loanId ≠ loanId) →
      Alike loanId ((processLoansWith faults rs).after d) d) ∧
    ∀ r ∈ rs.takeWhile (d.returns faults), r.loanId = loanId →
      Alike loanId ((processLoansWith faults rs).after d) ((processLoanWith faults r).after d) := by
  induction rs generalizing d with
  | nil => exact ⟨fun _ => .of_file rfl, fun _ hr => by cases hr⟩
  | cons r rs ih =>
      obtain ⟨hfound, hdue⟩ := h.due r (List.mem_cons_self ..)
      obtain ⟨hother, -⟩ := List.pairwise_cons.1 h.loans
      cases hreturns : d.returns faults r with
      | false =>
          rw [List.takeWhile_cons_of_neg (by simp [hreturns]), processLoansWith_of_error hreturns]
          exact ⟨fun _ => .of_file rfl, fun _ hr => by cases hr⟩
      | true =>
          obtain ⟨d', hrun, hcharged⟩ := processLoanWith_charged hfound hreturns
          have hafter : (processLoansWith faults (r :: rs)).after d =
              (processLoansWith faults rs).after d' :=
            congrArg Prod.snd (hrun.run_bind fun _ => processLoansWith faults rs)
          have hsame : ∀ r' ∈ rs, Alike r'.loanId d d' :=
            fun r' hr' => .of_file (hcharged.file_ne (hother r' hr')).symm
          have hwhile : rs.takeWhile (d.returns faults) = rs.takeWhile (d'.returns faults) := by
            refine takeWhile_congr fun r' hr' => (hsame r' hr').returns ?_
            exact (h.due r' (List.mem_cons_of_mem _ hr')).1
          obtain ⟨hspared, hworked⟩ := ih (h.charge hcharged)
          rw [List.takeWhile_cons_of_pos hreturns, hafter, hwhile]
          refine ⟨fun hnone => ?_, fun r' hr' hloan => ?_⟩
          · obtain ⟨hne, hrest⟩ := List.forall_mem_cons.1 hnone
            exact (hspared hrest).trans (.of_file (hcharged.file_ne hne))
          · rcases List.mem_cons.1 hr' with rfl | hr'
            · rw [hrun.after]
              refine hspared fun r'' hr'' => ?_
              exact hloan ▸ (hother r'' (List.takeWhile_subset _ hr'')).symm
            · subst hloan
              have hmem := List.takeWhile_subset _ hr'
              refine (hworked r' hr' rfl).trans ((hsame r' hmem).processLoanWith ?_).symm
              exact (h.due r' (List.mem_cons_of_mem _ hmem)).1

/-- All that meet a condition come before the first that does not just when none comes after one that
does not. -/
theorem mem_takeWhile_iff_pairwise {α : Type} {p : α → Bool} {xs : List α} (hnodup : xs.Nodup) :
    (∀ x ∈ xs, p x = true → x ∈ xs.takeWhile p) ↔
      xs.Pairwise fun x y => p x = false → p y = false := by
  induction xs with
  | nil => simp
  | cons x xs ih =>
      obtain ⟨hnew, hxs⟩ := List.nodup_cons.1 hnodup
      rw [List.pairwise_cons, ← ih hxs, List.takeWhile_cons]
      cases hx : p x with
      | true =>
          rw [if_pos rfl]
          constructor
          · refine fun h => ⟨fun y _ hfalse => absurd hfalse (by decide), fun y hy hpy => ?_⟩
            rcases List.mem_cons.1 (h y (List.mem_cons_of_mem _ hy) hpy) with rfl | hmem
            · exact absurd hy hnew
            · exact hmem
          · rintro ⟨-, h⟩ y hy hpy
            rcases List.mem_cons.1 hy with rfl | hy
            · exact List.mem_cons_self ..
            · exact List.mem_cons_of_mem _ (h y hy hpy)
      | false =>
          rw [if_neg Bool.false_ne_true]
          constructor
          · intro h
            have hnone : ∀ y ∈ xs, p y = false := fun y hy =>
              Bool.eq_false_iff.2 fun hpy => by cases h y (List.mem_cons_of_mem _ hy) hpy
            exact ⟨fun y hy _ => hnone y hy, fun y hy hpy => absurd hpy (by simp [hnone y hy])⟩
          · rintro ⟨h, -⟩ y hy hpy
            rcases List.mem_cons.1 hy with rfl | hy
            · cases hx.symm.trans hpy
            · cases (h y hy rfl).symm.trans hpy

/-! ### Without the loans that fail -/

/-- The transaction of a loan that the run lists fails. -/
def Database.failed (d : Database) (faults : Uuid → Option (ℕ × Error)) (now : Date)
    (loanId : Uuid) : Bool :=
  (d.overdueWork (now.setDate 20)).any fun r => r.loanId = loanId && !d.returns faults r

/-- A state without some of the loans of another. -/
structure Database.Without (gone : Uuid → Bool) (d e : Database) : Prop where
  loans : e.rows .loans = (d.rows .loans).filter fun loan => !gone loan.id
  installments : e.rows .installments = (d.rows .installments).filter fun i => !gone i.loanId
  loanPeriods : e.table .loanPeriods = d.table .loanPeriods

def Database.withoutLoans (d : Database) (gone : Uuid → Bool) : Database :=
  (d.setTable .loans ((d.table .loans).filter fun loan => !gone loan.id)).setTable .installments
    ((d.table .installments).filter fun i => !gone i.loanId)

variable {gone : Uuid → Bool} {cutoff : Date}

theorem without_withoutLoans (d : Database) (gone : Uuid → Bool) :
    d.Without gone (d.withoutLoans gone) := ⟨rfl, rfl, rfl⟩

theorem Database.Without.alike (h : d.Without gone e) (hkept : gone loanId = false) :
    Alike loanId d e := by
  constructor
  · have hfind : e.find .loans loanId = d.find .loans loanId := by
      rw [Database.find, Table.find?, Database.find, Table.find?]
      rw [show (e.table .loans).rows = _ from h.loans, List.find?_filter]
      refine congrArg (List.find? · _) (funext fun loan => ?_)
      by_cases hloan : loan.id = loanId <;> simp [Row.id, hloan, hkept]
    have hperiod : ∀ id, e.find .loanPeriods id = d.find .loanPeriods id :=
      Database.find_congr h.loanPeriods
    rw [Database.loanWithPeriod, Database.loanWithPeriod, hfind]
    simp only [hperiod]
  · rw [Database.installmentsOf, Database.installmentsOf, h.installments, List.filter_filter]
    refine List.filter_congr fun i _ => ?_
    by_cases hloan : i.loanId = loanId <;> simp [hloan, hkept]

theorem filter_orderedInsert {α : Type} {le : α → α → Prop} [DecidableRel le] [IsTrans α le]
    (p : α → Bool) (a : α) {xs : List α} (hsorted : xs.Pairwise le) :
    (xs.orderedInsert le a).filter p =
      if p a then (xs.filter p).orderedInsert le a else xs.filter p := by
  induction xs with
  | nil => simp [List.filter_cons]
  | cons x xs ih =>
      obtain ⟨hx, hxs⟩ := List.pairwise_cons.1 hsorted
      by_cases hle : le a x
      · have hfirst : ∀ y ∈ (x :: xs).filter p, le a y := by
          intro y hy
          rcases List.mem_cons.1 (List.mem_filter.1 hy).1 with rfl | hy
          · exact hle
          · exact IsTrans.trans _ _ _ hle (hx y hy)
        have hcons : ((x :: xs).filter p).orderedInsert le a = a :: (x :: xs).filter p := by
          cases hfilter : (x :: xs).filter p with
          | nil => rfl
          | cons y ys =>
              rw [List.orderedInsert_cons_of_le le ys (hfirst y (hfilter ▸ List.mem_cons_self ..))]
        rw [List.orderedInsert_cons_of_le le xs hle, hcons, List.filter_cons]
      · rw [List.orderedInsert_of_not_le le xs hle, List.filter_cons, List.filter_cons, ih hxs]
        split
        · split
          · rw [List.orderedInsert_of_not_le le _ hle]
          · rfl
        · rfl

theorem filter_insertionSort {α : Type} {le : α → α → Prop} [DecidableRel le] [IsTrans α le]
    [Std.Total le] (p : α → Bool) (xs : List α) :
    (xs.insertionSort le).filter p = (xs.filter p).insertionSort le := by
  induction xs with
  | nil => rfl
  | cons x xs ih =>
      rw [List.insertionSort_cons, filter_orderedInsert p x (List.pairwise_insertionSort le xs), ih,
        List.filter_cons]
      split <;> rfl

theorem firstByLoan_filter (rs : List Installment) :
    firstByLoan (rs.filter fun r => !gone r.loanId) =
      (firstByLoan rs).filter fun r => !gone r.loanId := by
  induction rs with
  | nil => rfl
  | cons r rs ih =>
      rw [firstByLoan, List.filter_cons, List.filter_cons, List.filter_filter]
      cases hgone : gone r.loanId with
      | false =>
          rw [Bool.not_false, if_pos rfl, firstByLoan, ih, List.filter_filter]
          exact congrArg _ (List.filter_congr fun r' _ => Bool.and_comm ..)
      | true =>
          rw [Bool.not_true, if_neg Bool.false_ne_true, if_neg Bool.false_ne_true, ih]
          refine List.filter_congr fun r' _ => ?_
          by_cases hloan : r'.loanId = r.loanId <;> simp [hloan, hgone]

theorem Database.Without.overdueWork (h : d.Without gone e) :
    e.overdueWork cutoff = (d.overdueWork cutoff).filter fun r => !gone r.loanId := by
  have : Std.Total fun a b : Installment => a.le b = true := ⟨Installment.le_total⟩
  have : IsTrans Installment fun a b => a.le b = true := ⟨fun _ _ _ => Installment.le_trans⟩
  rw [Database.overdueWork, Database.overdueWork, h.installments, List.filter_filter,
    ← firstByLoan_filter, filter_insertionSort, List.filter_filter]
  refine congrArg firstByLoan (congrArg _ (List.filter_congr fun i _ => Bool.and_comm ..))

/-! ### Complete runs -/

variable {now : Date}

theorem Charged.installmentsOf_ne (h : Charged r d d') (hdue : r.pastDue cutoff = true) :
    d'.installmentsOf r.loanId ≠ d.installmentsOf r.loanId := by
  intro hsame
  have hfound : d.find .installments r.id = some r := by cases h <;> assumption
  have hmem : r ∈ d'.installmentsOf r.loanId := hsame ▸ mem_installmentsOf.2 ⟨hfound, rfl⟩
  have hleft : r ∈ d'.pastDue cutoff := mem_pastDue.2 ⟨(List.mem_filter.1 hmem).1, hdue⟩
  rw [h.pastDue, List.mem_filter, decide_eq_true_eq] at hleft
  exact hleft.2 rfl

theorem failed_eq (hr : r ∈ d.overdueWork (now.setDate 20)) :
    d.failed faults now r.loanId = !d.returns faults r := by
  rw [Database.failed]
  cases hreturns : d.returns faults r with
  | false => exact List.any_eq_true.2 ⟨r, hr, by simp [hreturns]⟩
  | true =>
      refine List.any_eq_false.2 fun r' hr' hfails => ?_
      simp only [Bool.and_eq_true, decide_eq_true_eq, Bool.not_eq_true'] at hfails
      rw [(listed_overdueWork d _).eq_of_loan hr' hr hfails.1, hreturns] at hfails
      cases hfails.2

/-- A transaction that returns does so without its faults, and does the same. -/
theorem returns_without_faults (hfound : d.find .installments r.id = some r)
    (hreturns : d.returns faults r = true) : d.returns (fun _ => none) r = true ∧
      (processLoanWith (fun _ => none) r).after d = (processLoanWith faults r).after d := by
  obtain ⟨d', hrun, -⟩ := processLoanWith_charged hfound hreturns
  have hrun' : (processLoanWith (fun _ => none) r).Returns d .idle () d' .idle :=
    processLoanWith_ok hrun
  rw [Database.returns, Prog.result_eq_ok.2 ⟨d', _, hrun'⟩, hrun'.after, hrun.after]
  exact ⟨rfl, rfl⟩

/-- Without the loans that fail, a run returns, and leaves every loan as its transaction does. -/
theorem Database.Without.run (h : d.Without (d.failed faults now) e) :
    (∀ r ∈ d.overdueWork (now.setDate 20), d.returns faults r = true →
      Alike r.loanId ((processOverdueInstallments now).after e) ((processLoanWith faults r).after d)) ∧
    ∀ loanId, (∀ r ∈ d.overdueWork (now.setDate 20), r.loanId ≠ loanId) →
      Alike loanId ((processOverdueInstallments now).after e) e := by
  have hwork : ∀ r ∈ e.overdueWork (now.setDate 20),
      r ∈ d.overdueWork (now.setDate 20) ∧ d.returns faults r = true := by
    intro r hr
    rw [h.overdueWork, List.mem_filter] at hr
    refine ⟨hr.1, ?_⟩
    rw [failed_eq hr.1, Bool.not_not] at hr
    exact hr.2
  have hlisted := listed_overdueWork d (now.setDate 20)
  have halike : ∀ r ∈ d.overdueWork (now.setDate 20), d.returns faults r = true →
      Alike r.loanId d e := fun r hr hreturns => h.alike (by rw [failed_eq hr, hreturns]; rfl)
  have hall : (e.overdueWork (now.setDate 20)).takeWhile (e.returns fun _ => none) =
      e.overdueWork (now.setDate 20) := by
    refine List.takeWhile_eq_self_iff.2 fun r hr => ?_
    obtain ⟨hmem, hreturns⟩ := hwork r hr
    rw [← (halike r hmem hreturns).returns (hlisted.due r hmem).1]
    exact (returns_without_faults (hlisted.due r hmem).1 hreturns).1
  have hafter : (processOverdueInstallments now).after e =
      (processLoansWith (fun _ => none) (e.overdueWork (now.setDate 20))).after e := by
    rw [← processOverdueInstallmentsWith_none]
    rfl
  rw [hafter]
  refine ⟨fun r hr hreturns => ?_, fun loanId hnone => ?_⟩
  · have hmem : r ∈ e.overdueWork (now.setDate 20) := by
      rw [h.overdueWork, List.mem_filter, failed_eq hr, hreturns]
      exact ⟨hr, rfl⟩
    have hworked := (processLoansWith_alike (listed_overdueWork e _) r.loanId).2 r
      (hall.symm ▸ hmem) rfl
    refine hworked.trans ?_
    rw [← (returns_without_faults (hlisted.due r hr).1 hreturns).2]
    exact ((halike r hr hreturns).processLoanWith (hlisted.due r hr).1).symm
  · refine (processLoansWith_alike (listed_overdueWork e _) loanId).1 fun r hr => ?_
    exact hnone r (hwork r (List.takeWhile_subset _ hr)).1

/-- What a run with database errors should leave: the loans whose transactions fail as they were, and
every other as a run without them leaves it. -/
structure ProcessedAlone (faults : Uuid → Option (ℕ × Error)) (now : Date) (d e : Database) :
    Prop where
  failed : ∀ loanId, d.failed faults now loanId = true →
    ((processOverdueInstallmentsWith faults now).after d).installmentsOf loanId =
      d.installmentsOf loanId
  others : ∀ loanId, d.failed faults now loanId = false →
    ((processOverdueInstallmentsWith faults now).after d).installmentsOf loanId =
      ((processOverdueInstallments now).after e).installmentsOf loanId

/-- **Loans are processed independently** just when no loan whose transaction fails comes before one
whose transaction returns. Then a run with any database errors leaves the loans that fail as they
were, and brings every other to where a run without them would. -/
theorem processed_alone_iff (h : d.Without (d.failed faults now) e) :
    ProcessedAlone faults now d e ↔ (d.overdueWork (now.setDate 20)).Pairwise fun r r' =>
      d.returns faults r = false → d.returns faults r' = false := by
  have hlisted := listed_overdueWork d (now.setDate 20)
  have hnodup : (d.overdueWork (now.setDate 20)).Nodup :=
    hlisted.loans.imp fun hne hsame => hne (congrArg Installment.loanId hsame)
  have hrun := @processLoansWith_alike d _ faults hlisted
  obtain ⟨hworked, hspared⟩ := h.run
  rw [← mem_takeWhile_iff_pairwise hnodup]
  constructor
  · intro halone r hr hreturns
    by_contra hlate
    have hleft := ((hrun r.loanId).1 fun r' hr' hloan => ?_).installments
    · obtain ⟨d', hrun', hcharged⟩ := processLoanWith_charged (hlisted.due r hr).1 hreturns
      refine hcharged.installmentsOf_ne (Installment.pastDue_iff.2 (mem_overdueWork hr).2) ?_
      rw [← hrun'.after, ← (hworked r hr hreturns).installments, ← halone.others r.loanId ?_]
      · exact hleft
      · rw [failed_eq hr, hreturns]
        rfl
    · rw [hlisted.eq_of_loan (List.takeWhile_subset _ hr') hr hloan] at hr'
      exact hlate hr'
  · intro hall
    refine ⟨fun loanId hfailed => ?_, fun loanId hkept => ?_⟩
    · refine ((hrun loanId).1 fun r hr hloan => ?_).installments
      have hreturns := List.mem_takeWhile_imp hr
      rw [← hloan, failed_eq (List.takeWhile_subset _ hr), hreturns] at hfailed
      cases hfailed
    · by_cases hlisted' : ∃ r ∈ d.overdueWork (now.setDate 20), r.loanId = loanId
      · obtain ⟨r, hr, rfl⟩ := hlisted'
        have hreturns : d.returns faults r = true := by
          rw [failed_eq hr, Bool.not_eq_false'] at hkept
          exact hkept
        exact ((hrun r.loanId).2 r (hall r hr hreturns) rfl).installments.trans
          (hworked r hr hreturns).installments.symm
      · have hnone : ∀ r ∈ d.overdueWork (now.setDate 20), r.loanId ≠ loanId :=
          fun r hr hloan => hlisted' ⟨r, hr, hloan⟩
        have hleft := (hrun loanId).1 fun r hr => hnone r (List.takeWhile_subset _ hr)
        exact (hleft.trans ((h.alike hkept).trans (hspared loanId hnone).symm)).installments

/-- Two loans of one member. -/
def twoLoans : Database :=
  runCalls LoanCall.program seeded ((wholeLife 1).take 3 ++ (wholeLife 2).take 3)

/-- The transaction of one loan loses its connection before its third statement. -/
def losingConnection (loanId : Uuid) : Uuid → Option (ℕ × Error) :=
  fun id => if id = loanId then some (2, .connection) else none

/-- The last loan of a run fails. -/
theorem processed_alone_lastFails :
    ProcessedAlone (losingConnection 2) ⟨2026, 2, 20⟩ twoLoans
      (twoLoans.withoutLoans (twoLoans.failed (losingConnection 2) ⟨2026, 2, 20⟩)) := by
  refine (processed_alone_iff (without_withoutLoans _ _)).2 ?_
  have hwork : (twoLoans.overdueWork ⟨2026, 2, 20⟩).Pairwise fun r r' =>
      twoLoans.returns (losingConnection 2) r = false →
        twoLoans.returns (losingConnection 2) r' = false := by decide +kernel
  exact hwork

/-- The first loan of a run fails, and the second stays due. -/
theorem failed_loan_stops_others :
    twoLoans.failed (losingConnection 1) ⟨2026, 2, 20⟩ 1 = true ∧
      ¬ ProcessedAlone (losingConnection 1) ⟨2026, 2, 20⟩ twoLoans
        (twoLoans.withoutLoans (twoLoans.failed (losingConnection 1) ⟨2026, 2, 20⟩)) := by
  refine ⟨by decide +kernel, fun halone => ?_⟩
  have hkept : twoLoans.failed (losingConnection 1) ⟨2026, 2, 20⟩ 2 = false := by decide +kernel
  have hdiffer : ((processOverdueInstallmentsWith (losingConnection 1) ⟨2026, 2, 20⟩).after
        twoLoans).installmentsOf 2 ≠ ((processOverdueInstallments ⟨2026, 2, 20⟩).after
          (twoLoans.withoutLoans (twoLoans.failed (losingConnection 1) ⟨2026, 2, 20⟩))).installmentsOf
            2 := by decide +kernel
  exact hdiffer (halone.others 2 hkept)

end LumbungMesari
