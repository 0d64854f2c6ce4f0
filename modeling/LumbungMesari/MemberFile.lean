import LumbungMesari.LoanFile
import LumbungMesari.Members

/-!
# The file of a member

What a registration is, apart from the tables: the status of the user, and the principal savings,
each with its incomes and what was posted for them. A file is verified, approved and rejected;
`MemberFile.Step` is everything these do to it, in whatever order they come.
-/

namespace LumbungMesari

open Sql

namespace MemberCall

/-- Approvals and rejections. -/
def isDecision : MemberCall → Bool
  | verifyOtp .. => false
  | approveUser .. => true
  | rejectUser .. => true

def isApproval : MemberCall → Bool
  | approveUser .. => true
  | _ => false

end MemberCall

@[ext] structure MemberFile where
  status : Option UserStatus
  savings : List (PrincipalSavings × List Income × List Posting)

namespace MemberFile

/-- An approval: a new version of the savings, the income it was recorded as, and the posting. -/
def settle (f : MemberFile) (new : PrincipalSavings) (inc : Income) (posting : Posting) :
    MemberFile where
  status := some .active
  savings := f.savings.map fun x =>
    if x.1.id = new.id then (new, x.2.1 ++ [inc], x.2.2 ++ [posting]) else x

/-- Everything that a commit of a call can do. -/
inductive Step (f : MemberFile) : MemberCall → MemberFile → Prop where
  | verify {env : AuthEnv} {otpCode : String} {row : PrincipalSavings} (none : f.savings = [])
      (pending : row.status = .pending) :
      Step f (.verifyOtp env otpCode) ⟨some .waitingDeposit, [(row, [], [])]⟩
  | approve {ids : IncomeIds} {reason : Option String} {adminId : Uuid} {emailSent : Bool}
      {now : Date} {x : PrincipalSavings × List Income × List Posting} {inc : Income}
      (owed : x ∈ f.savings) (unpaid : x.1.status ≠ .paid) (amount : inc.amount = x.1.amount) :
      Step f (.approveUser ids reason adminId emailSent now)
        (f.settle (x.1.settle adminId now) inc (.in_, 0, x.1.amount))
  | reject {reason : String} {emailSent : Bool} :
      Step f (.rejectUser reason emailSent) ⟨some .rejected, f.savings⟩

variable {f f' : MemberFile} {x : MemberCall}

theorem settle_singleton {row : PrincipalSavings} {incomes : List Income} {postings : List Posting}
    (h : f.savings = [(row, incomes, postings)]) (adminId : Uuid) (now : Date) (inc : Income)
    (posting : Posting) : f.settle (row.settle adminId now) inc posting =
      ⟨some .active, [(row.settle adminId now, incomes ++ [inc], postings ++ [posting])]⟩ := by
  have hid : row.id = (row.settle adminId now).id := rfl
  rw [settle, h, List.map_singleton, if_pos hid]

/-! ### Once -/

/-- The savings of a user are none, or unpaid and not posted, or paid and posted once. -/
inductive Once : List (PrincipalSavings × List Income × List Posting) → Prop where
  | none : Once []
  | owed {row : PrincipalSavings} (unpaid : row.status ≠ .paid) : Once [(row, [], [])]
  | paid {row : PrincipalSavings} {inc : Income} (paid : row.status = .paid)
      (amount : inc.amount = row.amount) : Once [(row, [inc], [(.in_, 0, row.amount)])]

/-- The savings that are paid. -/
def countPaid (f : MemberFile) : ℕ := f.savings.countP fun x => x.1.status = .paid

theorem Step.once (h : f.Step x f') (hf : Once f.savings) :
    Once f'.savings ∧ [x].countP (·.isApproval) + f.countPaid ≤ f'.countPaid := by
  cases h with
  | verify none pending =>
      refine ⟨.owed (by rw [pending]; decide), ?_⟩
      simp [countPaid, none, MemberCall.isApproval]
  | reject => exact ⟨hf, by simp [countPaid, MemberCall.isApproval]⟩
  | @approve _ _ adminId _ now y inc owed unpaid amount =>
      generalize hsavings : f.savings = savings at hf owed
      cases hf with
      | none => cases owed
      | owed hunpaid =>
          obtain rfl := List.mem_singleton.1 owed
          rw [settle_singleton hsavings]
          refine ⟨.paid rfl amount, ?_⟩
          simp [countPaid, hsavings, hunpaid, PrincipalSavings.settle, MemberCall.isApproval]
      | paid hpaid =>
          obtain rfl := List.mem_singleton.1 owed
          exact absurd hpaid unpaid

theorem Once.countPaid_le (h : Once f.savings) : f.countPaid ≤ 1 := by
  rw [countPaid]
  refine List.countP_le_length.trans ?_
  generalize f.savings = savings at h
  cases h <;> simp

/-! ### Stages -/

/-- Where a registration stands, and how many decisions have been made on it. -/
inductive Stage : MemberFile → ℕ → Prop where
  | registered : Stage ⟨some .pending, []⟩ 0
  | verified {row : PrincipalSavings} (unpaid : row.status ≠ .paid) :
      Stage ⟨some .waitingDeposit, [(row, [], [])]⟩ 0
  | approved {row : PrincipalSavings} {inc : Income} {postings : List Posting}
      (paid : row.status = .paid) : Stage ⟨some .active, [(row, [inc], postings)]⟩ 1
  | rejected {row : PrincipalSavings} (unpaid : row.status ≠ .paid) :
      Stage ⟨some .rejected, [(row, [], [])]⟩ 1

/-- A decision is made on a file that waits for its deposit. -/
def Waits (f : MemberFile) (x : MemberCall) : Prop :=
  x.isDecision = true → f.status = some .waitingDeposit

/-- When decisions are only made on files that wait, every stage leads to a stage. -/
theorem Step.stage {n : ℕ} (h : f.Step x f') (hx : f.Waits x) (hf : f.Stage n) :
    f'.Stage (n + [x].countP (·.isDecision)) := by
  cases h with
  | verify none pending =>
      cases hf with
      | registered => exact .verified (by rw [pending]; decide)
      | verified | approved | rejected => cases none
  | approve owed unpaid amount =>
      have hstatus := hx rfl
      cases hf with
      | registered | approved | rejected => cases hstatus
      | verified =>
          obtain rfl := List.mem_singleton.1 owed
          rw [settle_singleton rfl]
          exact .approved rfl
  | reject =>
      have hstatus := hx rfl
      cases hf with
      | registered | approved | rejected => cases hstatus
      | verified hunpaid => exact .rejected hunpaid

theorem Stage.agrees {n : ℕ} (h : f.Stage n) : n ≤ 1 ∧
    (f.status = some .active ↔ ∃ x ∈ f.savings, x.1.status = .paid) ∧
    (f.status = some .rejected → ∀ x ∈ f.savings, x.1.status ≠ .paid ∧ x.2.1 = []) := by
  cases h with
  | registered => simp
  | verified hunpaid => simp [hunpaid]
  | approved hpaid => simp [hpaid]
  | rejected hunpaid => simp [hunpaid]

end MemberFile

end LumbungMesari
