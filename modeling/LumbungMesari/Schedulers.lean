import LumbungMesari.Sql.AdvisoryLocks
import LumbungMesari.Sql.Table
import LumbungMesari.Schema
import Mathlib.Logic.Relation

/-!
# Scheduled jobs

Every pod runs the two scheduled jobs. A run takes an advisory lock first, so that one pod at a time
does the work, and gives it back at the end. But a lock belongs to a connection, and each of the two
statements runs on whatever connection the pool hands out.
-/

namespace LumbungMesari

open Sql

/-- The jobs of `LoansScheduler` and `SavingsScheduler`. -/
inductive ScheduledJob where
  | checkOverdueInstallments
  | createYearlyMandatorySavings
  deriving DecidableEq, Repr

/-- `ADVISORY_LOCK_ID_CHECK_OVERDUE_INSTALLMENTS` and
`ADVISORY_LOCK_ID_GENERATE_YEARLY_MANDATORY_SAVINGS`. -/
def ScheduledJob.lockId : ScheduledJob → ℕ
  | createYearlyMandatorySavings => 1
  | checkOverdueInstallments => 2

theorem ScheduledJob.lockId_ne {job job' : ScheduledJob} (h : job ≠ job') :
    job.lockId ≠ job'.lockId := by
  cases job <;> cases job' <;> first | decide | exact absurd rfl h

/-- Where a run of a job stands: before the lock is asked for, in the `try`, or in the `finally`. -/
inductive Phase where
  | acquiring
  | processing
  | releasing
  deriving DecidableEq, Repr

/-- The run does the work. -/
def Phase.works : Phase → Bool
  | processing => true
  | _ => false

/-- The run has taken the lock. -/
def Phase.holds : Phase → Bool
  | acquiring => false
  | _ => true

variable {Pod Slot : Type}

/-- A connection in the pool of a pod. -/
structure Connection (Pod Slot : Type) where
  pod : Pod
  slot : Slot
  deriving DecidableEq

/-- A run in progress. -/
structure ScheduledRun (Pod : Type) where
  id : Uuid
  job : ScheduledJob
  pod : Pod
  phase : Phase

/-- The pods and their database. -/
structure Cluster (Pod Slot : Type) where
  locks : AdvisoryLocks (Connection Pod Slot) ℕ
  runs : Table (ScheduledRun Pod) ScheduledRun.id

/-- What happens to a run, with the connection that serves a statement. -/
inductive PodEvent (Pod Slot : Type) where
  | start (id : Uuid) (job : ScheduledJob) (pod : Pod)
  | tryLock (id : Uuid) (slot : Slot)
  /-- The work is done, or has failed: the error is caught and logged. -/
  | finish (id : Uuid)
  | unlock (id : Uuid) (slot : Slot)

namespace Cluster

/-- No job has run yet. -/
def initial : Cluster Pod Slot := ⟨fun _ => none, .empty⟩

/-- The runs of a job that meet a condition. -/
def count (s : Cluster Pod Slot) (job : ScheduledJob) (p : Phase → Bool) : ℕ :=
  s.runs.rows.countP fun r => r.job = job && p r.phase

def inProgress (s : Cluster Pod Slot) (job : ScheduledJob) : ℕ := s.count job fun _ => true

def processing (s : Cluster Pod Slot) (job : ScheduledJob) : ℕ := s.count job Phase.works

def holding (s : Cluster Pod Slot) (job : ScheduledJob) : ℕ := s.count job Phase.holds

section Count

variable {s : Cluster Pod Slot} {job : ScheduledJob}

theorem count_mono {p q : Phase → Bool} (hpq : ∀ phase, p phase = true → q phase = true) :
    s.count job p ≤ s.count job q := by
  refine List.countP_mono_left fun r _ hr => ?_
  rw [Bool.and_eq_true] at hr ⊢
  exact ⟨hr.1, hpq _ hr.2⟩

theorem count_started {id : Uuid} {pod : Pod} {job' : ScheduledJob} (job : ScheduledJob)
    (p : Phase → Bool) (fresh : s.runs.find? id = none) :
    count { s with runs := s.runs.insert ⟨id, job', pod, .acquiring⟩ } job p =
      s.count job p + if job' = job && p .acquiring then 1 else 0 :=
  Table.countP_insert _ fresh

theorem count_replaced {r : ScheduledRun Pod} (job : ScheduledJob) (phase : Phase)
    (found : s.runs.find? r.id = some r) (locks : AdvisoryLocks (Connection Pod Slot) ℕ)
    (p : Phase → Bool) :
    count ⟨locks, s.runs.replace { r with phase }⟩ job p +
        (if r.job = job && p r.phase then 1 else 0) =
      s.count job p + if r.job = job && p phase then 1 else 0 := by
  have hfound : s.runs.find? { r with phase }.id = some r := found
  exact Table.countP_replace (fun r : ScheduledRun Pod => r.job = job && p r.phase) hfound

theorem count_erased {r : ScheduledRun Pod} (job : ScheduledJob)
    (found : s.runs.find? r.id = some r) (locks : AdvisoryLocks (Connection Pod Slot) ℕ)
    (p : Phase → Bool) :
    count ⟨locks, s.runs.erase r.id⟩ job p + (if r.job = job && p r.phase then 1 else 0) =
      s.count job p :=
  Table.countP_erase _ found

omit s job in
theorem processing_le_holding (s : Cluster Pod Slot) (job : ScheduledJob) :
    s.processing job ≤ s.holding job := by
  refine count_mono fun phase hphase => ?_
  cases phase with
  | processing => rfl
  | acquiring | releasing => cases hphase

/-- The lock of a job is taken as often as runs hold it, and some times more. -/
structure Balanced (job : ScheduledJob) (leaked : ℕ) (s : Cluster Pod Slot) : Prop where
  depth : s.locks.depth job.lockId = s.holding job + leaked
  exclusive : s.processing job ≤ 1

theorem balanced_initial (job : ScheduledJob) : (initial : Cluster Pod Slot).Balanced job 0 :=
  ⟨rfl, Nat.zero_le 1⟩

theorem Balanced.of_ne {leaked : ℕ} {s' : Cluster Pod Slot} (h : s.Balanced job leaked)
    (hlock : s'.locks job.lockId = s.locks job.lockId)
    (hcount : ∀ p, s'.count job p = s.count job p) : s'.Balanced job leaked := by
  constructor
  · rw [AdvisoryLocks.depth, hlock, ← AdvisoryLocks.depth, h.depth, holding, holding, hcount]
  · rw [processing, hcount]
    exact h.exclusive

end Count

variable [DecidableEq Pod] [DecidableEq Slot]

/-- One step of `checkOverdueInstallments` or `createYearlyMandatorySavings`. A run that is refused the
lock is skipped. -/
def step (s : Cluster Pod Slot) : PodEvent Pod Slot → Option (Cluster Pod Slot)
  | .start id job pod =>
      if s.runs.find? id = none then
        some { s with runs := s.runs.insert ⟨id, job, pod, .acquiring⟩ }
      else none
  | .tryLock id slot => do
      let r ← s.runs.find? id
      if r.phase = .acquiring then
        let (locks, acquired) := s.locks.tryLock ⟨r.pod, slot⟩ r.job.lockId
        if acquired then some { locks, runs := s.runs.replace { r with phase := .processing } }
        else some { s with runs := s.runs.erase id }
      else none
  | .finish id => do
      let r ← s.runs.find? id
      if r.phase = .processing then
        some { s with runs := s.runs.replace { r with phase := .releasing } }
      else none
  | .unlock id slot => do
      let r ← s.runs.find? id
      if r.phase = .releasing then
        some {
          locks := s.locks.unlock ⟨r.pod, slot⟩ r.job.lockId
          runs := s.runs.erase id }
      else none

/-- What a step can be. -/
inductive Stepped (s : Cluster Pod Slot) : PodEvent Pod Slot → Cluster Pod Slot → Prop
  | started {id : Uuid} {job : ScheduledJob} {pod : Pod} (fresh : s.runs.find? id = none) :
      Stepped s (.start id job pod) { s with runs := s.runs.insert ⟨id, job, pod, .acquiring⟩ }
  | acquired {r : ScheduledRun Pod} {slot : Slot} (found : s.runs.find? r.id = some r)
      (acquiring : r.phase = .acquiring)
      (lock : (s.locks.tryLock ⟨r.pod, slot⟩ r.job.lockId).2 = true) :
      Stepped s (.tryLock r.id slot) {
        locks := (s.locks.tryLock ⟨r.pod, slot⟩ r.job.lockId).1
        runs := s.runs.replace { r with phase := .processing } }
  | skipped {r : ScheduledRun Pod} {slot : Slot} (found : s.runs.find? r.id = some r)
      (acquiring : r.phase = .acquiring)
      (lock : (s.locks.tryLock ⟨r.pod, slot⟩ r.job.lockId).2 = false) :
      Stepped s (.tryLock r.id slot) { s with runs := s.runs.erase r.id }
  | finished {r : ScheduledRun Pod} (found : s.runs.find? r.id = some r)
      (processing : r.phase = .processing) :
      Stepped s (.finish r.id) { s with runs := s.runs.replace { r with phase := .releasing } }
  | unlocked {r : ScheduledRun Pod} {slot : Slot} (found : s.runs.find? r.id = some r)
      (releasing : r.phase = .releasing) :
      Stepped s (.unlock r.id slot) {
        locks := s.locks.unlock ⟨r.pod, slot⟩ r.job.lockId
        runs := s.runs.erase r.id }

variable {s s' : Cluster Pod Slot} {event : PodEvent Pod Slot} {job : ScheduledJob}

theorem step_cases (h : s.step event = some s') : s.Stepped event s' := by
  cases event with
  | start id job pod =>
      rw [step] at h
      split at h
      · cases h
        exact .started ‹_›
      · cases h
  | tryLock id slot =>
      obtain ⟨r, hfind, hrun⟩ := Option.bind_eq_some_iff.1 h
      obtain rfl : r.id = id := (Table.find?_some hfind).2
      split at hrun
      · rename_i hphase
        dsimp only at hrun
        split at hrun
        · cases hrun
          exact .acquired hfind hphase ‹_›
        · rename_i hlock
          cases hrun
          exact .skipped hfind hphase (Bool.eq_false_iff.2 hlock)
      · cases hrun
  | finish id =>
      obtain ⟨r, hfind, hrun⟩ := Option.bind_eq_some_iff.1 h
      obtain rfl : r.id = id := (Table.find?_some hfind).2
      split at hrun
      · cases hrun
        exact .finished hfind ‹_›
      · cases hrun
  | unlock id slot =>
      obtain ⟨r, hfind, hrun⟩ := Option.bind_eq_some_iff.1 h
      obtain rfl : r.id = id := (Table.find?_some hfind).2
      split at hrun
      · cases hrun
        exact .unlocked hfind ‹_›
      · cases hrun

/-! ### Runs of a job and its lock -/

/-- What the lock is for: one run at a time does the work, and between runs the lock is free for
whichever connection asks for it. -/
structure Safe (s : Cluster Pod Slot) : Prop where
  exclusive : ∀ job, s.processing job ≤ 1
  free : ∀ job, s.inProgress job = 0 → s.locks job.lockId = none ∧
    ∀ connection, (s.locks.tryLock connection job.lockId).2 = true

/-- A step is served by a fitting connection: the lock is asked for on one that does not hold it, while
a run does the work, and is given back on the one that holds it. -/
def Served (s : Cluster Pod Slot) : PodEvent Pod Slot → Prop
  | .tryLock id slot => ∀ r ∈ s.runs.find? id,
      s.locks.HeldBy ⟨r.pod, slot⟩ r.job.lockId → s.processing r.job = 0
  | .unlock id slot => ∀ r ∈ s.runs.find? id, s.locks.HeldBy ⟨r.pod, slot⟩ r.job.lockId
  | _ => True

instance (s : Cluster Pod Slot) : (event : PodEvent Pod Slot) → Decidable (s.Served event)
  | .tryLock id slot => inferInstanceAs (Decidable (∀ r ∈ s.runs.find? id,
      s.locks.HeldBy ⟨r.pod, slot⟩ r.job.lockId → s.processing r.job = 0))
  | .unlock id slot => inferInstanceAs (Decidable (∀ r ∈ s.runs.find? id,
      s.locks.HeldBy ⟨r.pod, slot⟩ r.job.lockId))
  | .start _ _ _ => inferInstanceAs (Decidable True)
  | .finish _ => inferInstanceAs (Decidable True)

/-! ### Steps and the lock -/

section Steps

variable {leaked : ℕ}

/-- A run takes the lock where nobody does the work: the lock was free, or the connection fits. -/
theorem Balanced.acquired {r : ScheduledRun Pod} {slot : Slot} (h : s.Balanced r.job leaked)
    (found : s.runs.find? r.id = some r) (acquiring : r.phase = .acquiring)
    (lock : (s.locks.tryLock ⟨r.pod, slot⟩ r.job.lockId).2 = true)
    (hserved : s.locks.HeldBy ⟨r.pod, slot⟩ r.job.lockId → s.processing r.job = 0) :
    Balanced r.job leaked {
      locks := (s.locks.tryLock ⟨r.pod, slot⟩ r.job.lockId).1
      runs := s.runs.replace { r with phase := .processing } } := by
  have hnone : s.processing r.job = 0 := by
    rcases AdvisoryLocks.tryLock_iff.1 lock with hfree | hheld
    · have hdepth := h.depth
      rw [AdvisoryLocks.depth_eq_zero.2 hfree] at hdepth
      have hle := s.processing_le_holding r.job
      omega
    · exact hserved hheld
  have hcount := count_replaced r.job .processing found
    (s.locks.tryLock ⟨r.pod, slot⟩ r.job.lockId).1
  have hholding := hcount Phase.holds
  have hprocessing := hcount Phase.works
  simp only [acquiring, decide_true, Bool.true_and, Phase.holds, Phase.works, Bool.false_eq_true,
    if_true, if_false] at hholding hprocessing
  constructor
  · rw [AdvisoryLocks.tryLock_depth lock, h.depth, holding, holding]
    omega
  · rw [processing] at hnone ⊢
    omega

theorem Balanced.unlocked {r : ScheduledRun Pod} {slot : Slot} (h : s.Balanced r.job leaked)
    (found : s.runs.find? r.id = some r) (releasing : r.phase = .releasing)
    (hheld : s.locks.HeldBy ⟨r.pod, slot⟩ r.job.lockId) :
    Balanced r.job leaked {
      locks := s.locks.unlock ⟨r.pod, slot⟩ r.job.lockId
      runs := s.runs.erase r.id } := by
  have hcount := count_erased r.job found (s.locks.unlock ⟨r.pod, slot⟩ r.job.lockId)
  have hholding := hcount Phase.holds
  have hprocessing := hcount Phase.works
  simp only [releasing, decide_true, Bool.true_and, Phase.holds, Phase.works, Bool.false_eq_true,
    if_true, if_false] at hholding hprocessing
  constructor
  · have hdepth := AdvisoryLocks.unlock_depth hheld
    rw [h.depth, holding] at hdepth
    show (s.locks.unlock ⟨r.pod, slot⟩ r.job.lockId).depth r.job.lockId = _
    rw [holding]
    omega
  · exact (le_of_eq hprocessing).trans h.exclusive

/-- A step that is served by a fitting connection keeps the balance. -/
theorem Balanced.step (h : s.Balanced job leaked) (hserved : s.Served event)
    (hstep : s.step event = some s') : s'.Balanced job leaked := by
  cases step_cases hstep with
  | started fresh =>
      constructor
      · rw [holding, count_started _ _ fresh]
        simpa [Phase.holds, holding] using h.depth
      · rw [processing, count_started _ _ fresh]
        simpa [Phase.works, processing] using h.exclusive
  | @acquired r slot found acquiring lock =>
      by_cases hjob : r.job = job
      · subst hjob
        exact h.acquired found acquiring lock (hserved r found)
      · have hcount := count_replaced job .processing found
          (s.locks.tryLock ⟨r.pod, slot⟩ r.job.lockId).1
        refine h.of_ne (AdvisoryLocks.tryLock_ne (ScheduledJob.lockId_ne (Ne.symm hjob)))
          fun p => ?_
        simpa [hjob] using hcount p
  | @skipped r slot found acquiring lock =>
      have hcount := count_erased job found s.locks
      constructor
      · have hholding := hcount Phase.holds
        simp only [acquiring, Phase.holds, Bool.and_false, Bool.false_eq_true, if_false] at hholding
        rw [h.depth, holding, holding, ← hholding]
        rfl
      · have hprocessing := hcount Phase.works
        simp only [acquiring, Phase.works, Bool.and_false, Bool.false_eq_true, if_false] at hprocessing
        exact (le_of_eq hprocessing).trans h.exclusive
  | @finished r found isProcessing =>
      have hcount := count_replaced job .releasing found s.locks
      constructor
      · have hholding := hcount Phase.holds
        simp only [isProcessing, Phase.holds] at hholding
        rw [h.depth, holding, holding]
        exact congrArg (· + leaked) (Nat.add_right_cancel hholding).symm
      · have hprocessing := hcount Phase.works
        simp only [isProcessing, Phase.works, Bool.and_false, Bool.false_eq_true, if_false] at hprocessing
        have hexclusive := h.exclusive
        rw [processing] at hexclusive ⊢
        omega
  | @unlocked r slot found releasing =>
      by_cases hjob : r.job = job
      · subst hjob
        exact h.unlocked found releasing (hserved r found)
      · have hcount := count_erased job found (s.locks.unlock ⟨r.pod, slot⟩ r.job.lockId)
        refine h.of_ne (AdvisoryLocks.unlock_ne (ScheduledJob.lockId_ne (Ne.symm hjob))) fun p => ?_
        simpa [hjob] using hcount p

/-- A lock that is given back on another connection stays taken. -/
theorem Balanced.leak {r : ScheduledRun Pod} {slot : Slot} (h : s.Balanced r.job leaked)
    (found : s.runs.find? r.id = some r) (releasing : r.phase = .releasing)
    (hother : ¬ s.locks.HeldBy ⟨r.pod, slot⟩ r.job.lockId) :
    Balanced r.job (leaked + 1) {
      locks := s.locks.unlock ⟨r.pod, slot⟩ r.job.lockId
      runs := s.runs.erase r.id } := by
  rw [AdvisoryLocks.unlock_of_not_heldBy hother]
  have hcount := count_erased r.job found s.locks
  have hholding := hcount Phase.holds
  have hprocessing := hcount Phase.works
  simp only [releasing, decide_true, Bool.true_and, Phase.holds, Phase.works, Bool.false_eq_true,
    if_true, if_false] at hholding hprocessing
  constructor
  · show s.locks.depth r.job.lockId = _
    rw [h.depth, holding, holding]
    omega
  · exact (le_of_eq hprocessing).trans h.exclusive

/-- A lock that is taken as often as runs hold it is free between runs. -/
theorem safe_of_balanced (h : ∀ job, s.Balanced job 0) : s.Safe := by
  refine ⟨fun job => (h job).exclusive, fun job hnone => ?_⟩
  have hdepth := (h job).depth
  have hle : s.holding job ≤ s.inProgress job := count_mono fun _ _ => rfl
  have hfree : s.locks job.lockId = none := AdvisoryLocks.depth_eq_zero.1 (by omega)
  exact ⟨hfree, fun _ => AdvisoryLocks.tryLock_iff.2 (.inl hfree)⟩

end Steps

/-! ### Sequences of steps -/

def run (s : Cluster Pod Slot) : List (PodEvent Pod Slot) → Option (Cluster Pod Slot)
  | [] => some s
  | event :: events => do
      let s ← s.step event
      s.run events

def AllServed (s : Cluster Pod Slot) : List (PodEvent Pod Slot) → Prop
  | [] => True
  | event :: events => s.Served event ∧ ∀ s' ∈ s.step event, s'.AllServed events

instance decidableAllServed : (events : List (PodEvent Pod Slot)) → (s : Cluster Pod Slot) →
    Decidable (s.AllServed events)
  | [], _ => inferInstanceAs (Decidable True)
  | event :: events, s =>
      have := decidableAllServed events
      inferInstanceAs (Decidable (s.Served event ∧ ∀ s' ∈ s.step event, s'.AllServed events))

theorem Balanced.run {leaked : ℕ} {events : List (PodEvent Pod Slot)} (h : s.Balanced job leaked)
    (hserved : s.AllServed events) (hrun : s.run events = some s') : s'.Balanced job leaked := by
  induction events generalizing s with
  | nil =>
      cases hrun
      exact h
  | cons event events ih =>
      obtain ⟨s₁, hstep, hrun⟩ := Option.bind_eq_some_iff.1 hrun
      exact ih (h.step hserved.1 hstep) (hserved.2 s₁ hstep) hrun

/-- **The scheduler lock is given back** as long as every statement is served by a fitting connection:
at no time do two runs of a job do its work, and whenever no run is in progress the lock is free. The
first statement that is not lets two runs work at once, or leaves the lock taken whenever no run is
in progress. -/
theorem lock_given_back {events : List (PodEvent Pod Slot)} {s : Cluster Pod Slot}
    (hserved : initial.AllServed events) (hrun : initial.run events = some s) :
    s.Safe ∧ ∀ event s', s.step event = some s' → ¬ s.Served event → ∃ job, 1 < s'.processing job ∨
      ∀ events' s'', s'.AllServed events' → s'.run events' = some s'' → s''.inProgress job = 0 →
        s''.locks job.lockId ≠ none := by
  have hbalanced : ∀ job, s.Balanced job 0 := fun job =>
    (balanced_initial job).run hserved hrun
  refine ⟨safe_of_balanced hbalanced, fun event s' hstep hunserved => ?_⟩
  cases step_cases hstep with
  | started | finished => exact absurd trivial hunserved
  | @acquired r slot found acquiring lock =>
      refine ⟨r.job, .inl ?_⟩
      have hworking : s.processing r.job ≠ 0 := by
        intro hnone
        refine hunserved fun r' hr' hheld => ?_
        obtain rfl : r = r' := Option.some.inj (found.symm.trans hr')
        exact hnone
      have hprocessing := count_replaced r.job .processing found
        (s.locks.tryLock ⟨r.pod, slot⟩ r.job.lockId).1 Phase.works
      simp only [acquiring, decide_true, Bool.true_and, Phase.works, Bool.false_eq_true, if_true,
        if_false] at hprocessing
      rw [processing] at hworking ⊢
      omega
  | @skipped r slot found acquiring lock =>
      refine absurd (fun r' hr' hheld => ?_) hunserved
      obtain rfl : r = r' := Option.some.inj (found.symm.trans hr')
      rw [AdvisoryLocks.tryLock_iff.2 (.inr hheld)] at lock
      cases lock
  | @unlocked r slot found releasing =>
      have hother : ¬ s.locks.HeldBy ⟨r.pod, slot⟩ r.job.lockId := by
        refine fun hheld => hunserved fun r' hr' => ?_
        obtain rfl : r = r' := Option.some.inj (found.symm.trans hr')
        exact hheld
      refine ⟨r.job, .inr fun events' s'' hserved' hrun' hnone hfree => ?_⟩
      have hleft := (((hbalanced r.job).leak found releasing hother).run hserved' hrun').depth
      rw [AdvisoryLocks.depth_eq_zero.2 hfree] at hleft
      omega

/-- Two pods, each of which uses one connection. The second is refused the lock. -/
def oneConnectionEach : List (PodEvent Bool ℕ) := [
  .start 1 .checkOverdueInstallments true, .start 2 .checkOverdueInstallments false,
  .tryLock 1 0, .tryLock 2 0, .finish 1, .unlock 1 0]

theorem lock_given_back_oneConnectionEach :
    ∃ s, initial.run oneConnectionEach = some s ∧ s.Safe := by
  have hserved : initial.AllServed oneConnectionEach := by decide
  have hreturns : (initial.run oneConnectionEach).isSome = true := by decide
  obtain ⟨s, hrun⟩ := Option.isSome_iff_exists.1 hreturns
  exact ⟨s, hrun, (lock_given_back hserved hrun).1⟩

/-- A run gives the lock back on another connection than it took it on. -/
def otherConnection : List (PodEvent Unit ℕ) := [
  .start 1 .checkOverdueInstallments (), .tryLock 1 0, .finish 1, .unlock 1 1]

/-- Two runs of a pod are served by one connection. -/
def sameConnection : List (PodEvent Unit ℕ) := [
  .start 1 .checkOverdueInstallments (), .start 2 .checkOverdueInstallments (),
  .tryLock 1 0, .tryLock 2 0]

/-- The lock stays taken after the run, and the next run is refused it. Or two runs work at once. -/
theorem lock_not_given_back :
    (∃ s, initial.run otherConnection = some s ∧ s.inProgress .checkOverdueInstallments = 0 ∧
      (s.locks.tryLock ⟨(), 1⟩ (ScheduledJob.lockId .checkOverdueInstallments)).2 = false) ∧
    ∃ s, initial.run sameConnection = some s ∧ s.processing .checkOverdueInstallments = 2 :=
  ⟨⟨_, rfl, by decide, by decide⟩, _, rfl, by decide⟩

end Cluster

end LumbungMesari
