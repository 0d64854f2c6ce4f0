import LumbungMesari.Statements

/-!
# Incomes

`IncomesRepository` and `IncomesService`. The six functions of the service look up a category by its
code and insert an income of that category; they differ in the code, the name, the default notes and
the record the income is for.
-/

namespace LumbungMesari

open Sql
open Prog (inTrx)

/-- The columns of a new row of `incomes`, the category apart. -/
structure IncomeData where
  name : String
  amount : ℚ
  loanId : Option Uuid
  installmentId : Option Uuid
  principalSavingId : Option Uuid
  mandatorySavingId : Option Uuid
  notes : String

def IncomeData.toRow (data : IncomeData) (id incomeCategoryId : Uuid) (now : Date) :
    Except Error Income := do
  let amount ← money data.amount
  pure {
    id, name := data.name, incomeCategoryId, amount, loanId := data.loanId,
    installmentId := data.installmentId, principalSavingId := data.principalSavingId,
    mandatorySavingId := data.mandatorySavingId, notes := some data.notes, txnDate := now }

/-- The ids of an income and of its ledger row. -/
structure IncomeIds where
  income : Uuid
  ledger : Uuid

def findCategoryByCode (code : String) : Program (Option IncomeCategory) :=
  inTrx (select fun d => (d.rows .incomeCategories).find? fun c => decide (c.code = code))

/-- Insert an income of the category with a code. -/
def createIncomeOf (code : String) (id : Uuid) (data : IncomeData) (now : Date) :
    Program Income := do
  match ← findCategoryByCode code with
  | none =>
      .throw (.httpException 404 ("Income category \"" ++ code ++ "\" not found. Please run seed."))
  | some category => inTrx (insertInto .incomes (data.toRow id category.id now))

def createPrincipalSavingsIncome (id principalSavingsId : Uuid) (amount : ℚ)
    (notes : Option String) (now : Date) : Program Income :=
  createIncomeOf "principal_savings" id
    ⟨"Simpanan Pokok", amount, none, none, some principalSavingsId, none,
      notes.getD "Simpanan pokok dari anggota baru"⟩ now

def createMandatorySavingsIncome (id mandatorySavingsId : Uuid) (amount : ℚ)
    (notes : Option String) (now : Date) : Program Income :=
  createIncomeOf "mandatory_savings" id
    ⟨"Simpanan Wajib", amount, none, none, none, some mandatorySavingsId,
      notes.getD "Simpanan wajib dari anggota"⟩ now

def createInstallmentPrincipalIncome (id installmentId : Uuid) (name : String) (amount : ℚ)
    (notes : String) (now : Date) : Program Income :=
  createIncomeOf "installment_principal" id
    ⟨name, amount, none, some installmentId, none, none, notes⟩ now

def createInstallmentInterestIncome (id installmentId : Uuid) (name : String) (amount : ℚ)
    (notes : String) (now : Date) : Program Income :=
  createIncomeOf "loan_interest" id ⟨name, amount, none, some installmentId, none, none, notes⟩ now

def createLoanAdminFeeIncome (id loanId : Uuid) (amount : ℚ) (notes : Option String) (now : Date) :
    Program Income :=
  createIncomeOf "loan_admin_fee" id
    ⟨"Biaya Administrasi Pinjaman", amount, some loanId, none, none, none,
      notes.getD "Biaya administrasi pinjaman"⟩ now

def createInstallmentPenaltyIncome (id installmentId : Uuid) (name : String) (amount : ℚ)
    (notes : String) (now : Date) : Program Income :=
  createIncomeOf "late_payment_penalty" id
    ⟨name, amount, none, some installmentId, none, none, notes⟩ now

end LumbungMesari
