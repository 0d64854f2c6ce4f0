import LumbungMesari.Footprints
import LumbungMesari.Seeds

/-!
# Who can move money through the expenses API

Two runs are compared: one of a sequence of requests, and one of the same sequence without the
requests of users who are neither administrators nor superadministrators. Those requests end at the
guards, and the others leave the users, and with them everyone's role, as they are.
-/

namespace LumbungMesari

open Sql
open Prog (onPool)

/-- The role a user has. -/
def Database.roleOf (d : Database) (id : Uuid) : Option UserRole := (d.find .users id).map (·.roleId)

def UserRole.operates (role : UserRole) : Bool := role = .admin ∨ role = .superadmin

/-- The request does not come from a user with another role. -/
def ExpensesRequest.operator (d : Database) (request : ExpensesRequest) : Bool :=
  (d.roleOf request.sub).all UserRole.operates

/-! ### The guards -/

theorem ExpensesRoute.roles_eq (route : ExpensesRoute) : route.roles = some [.admin, .superadmin] := by
  cases route <;> rfl

theorem canActivate_of_not_operates {route : ExpensesRoute} {classRoles : Option (List UserRole)}
    {user : UserJWT} {role : UserRole} (hrole : user.role = some role)
    (h : role.operates = false) : canActivate route.roles classRoles user =
      .error (.httpException 403 (insufficientPermissionsMessage role)) := by
  have hnot : role ∉ [UserRole.admin, .superadmin] := by
    simpa [UserRole.operates] using h
  have hroles : (route.roles <|> classRoles) = some [.admin, .superadmin] := by
    rw [route.roles_eq]
    rfl
  simp only [canActivate, hroles, hrole, if_neg hnot]

/-- The guard reads the user of the token, and hands on the role of the row. -/
theorem after_jwtAuthGuard {α : Type} {d : Database} {sub : Uuid} {u : User}
    (hfind : d.find .users sub = some u) {k : UserJWT → Program α}
    (hk : ∀ user, user.role = some u.roleId → (k user).after d = d) :
    (jwtAuthGuard sub >>= k).after d = d := by
  have hread : (findUserById sub).run d .idle = (.ok (some u.selectById, .idle), d) := by
    rw [← Option.map_some, ← hfind]
    rfl
  rw [Prog.after, Prog.run_bind, jwtAuthGuard, Prog.run_bind, hread]
  dsimp only
  rw [validateJwt]
  by_cases hdeactivated : u.selectById.status = .inactive ∨ u.selectById.status = .rejected
  · rw [if_pos hdeactivated]
    rfl
  · rw [if_neg hdeactivated]
    exact hk _ rfl

theorem after_of_not_operator {d : Database} {request : ExpensesRequest}
    (h : request.operator d = false) : request.program.after d = d := by
  rw [ExpensesRequest.operator, Database.roleOf] at h
  cases hfind : d.find .users request.sub with
  | none =>
      rw [hfind] at h
      cases h
  | some u =>
      rw [hfind, Option.map_some, Option.all_some] at h
      have hguards : request.program.after d = (jwtAuthGuard request.sub >>= _).after d :=
        congrArg (Prog.after · d) (Prog.bind_bind ..)
      rw [hguards]
      refine after_jwtAuthGuard hfind fun user hrole => ?_
      rw [canActivate_of_not_operates hrole h]
      rfl

theorem users_kept (d : Database) (request : ExpensesRequest) :
    (request.program.after d).table .users = d.table .users := by
  have hwrites : request.program.Writes (Write.Spares .users) := by
    refine .bind ?_ fun _ => trivial
    refine .bind (.bind (Prog.writes_onPool writes_select) fun found => ?_) fun user => ?_
    · split <;> trivial
    · split
      · trivial
      · exact (request.route.tame_handle (by decide) (by decide)).writes
  refine hwrites.after_keeps (I := fun d' => d'.table .users = d.table .users) (fun hw hd => ?_) rfl
  rw [Database.store_apply, Database.table_apply hw, hd]

/-! ### Two runs -/

/-- **Members move no money.** Leaving out the requests of users who are neither administrators nor
superadministrators leaves the final state as it is: expenses, ledger rows, balances and all else. -/
theorem members_move_no_money (d : Database) (requests : List ExpensesRequest) :
    runCalls ExpensesRequest.program d (requests.filter (·.operator d)) =
      runCalls ExpensesRequest.program d requests := by
  refine runCalls_filter (fun d request h => after_of_not_operator h) (fun d request => ?_) d requests
  funext request'
  rw [ExpensesRequest.operator, ExpensesRequest.operator, Database.roleOf, Database.roleOf,
    Database.find_congr (users_kept d request)]

/-! ### A member and an administrator -/

def creating (sub : Uuid) : ExpensesRequest where
  sub := sub
  now := ⟨2026, 1, 5⟩
  route := .createExpense ⟨10 * sub, 10 * sub + 1, 10 * sub + 2⟩ (.ok {
    expenseCategoryId := 1
    name := "Listrik"
    amount := 150000
    loanId := none
    notes := none
    source := none
    transactionDate := none })

example : ((runCalls ExpensesRequest.program seeded [creating 3, creating 1]).rows .expenses).map
    (·.createdBy) = [1] := by decide +kernel

end LumbungMesari
