import LumbungMesari.Pagination
import LumbungMesari.Users
import LumbungMesari.Seeds
import Mathlib.Data.String.Basic

/-!
# Lists of users and loans

Both lists are filtered, sorted by one column and paged. Only `id` and, among the columns of the
users, `username` tell all rows apart; by any other column rows can be tied.
-/

namespace LumbungMesari

open Sql

/-! ### What the queries read -/

structure Timestamps where
  createdAt : Timestamp
  updatedAt : Timestamp
  deriving DecidableEq

/-- What the queries read besides the modelled columns: how texts compare, whether a text matches a
pattern, and the timestamps of the rows. -/
structure ListContext where
  collation : OrderBy String
  ilike : String → String → Bool
  users : Uuid → Timestamps
  loans : Uuid → Timestamps

inductive SortOrder where
  | asc
  | desc
  deriving DecidableEq, Repr

def SortOrder.of {α : Type} (o : OrderBy α) : SortOrder → OrderBy α
  | .asc => o
  | .desc => o.reverse

/-- A filter that is `undefined` or empty is not applied. -/
def whereGiven (value : Option String) (filter : String → Bool) : Bool :=
  match value with
  | none => true
  | some value => value.isEmpty || filter value

/-- The white space that `trim` removes. -/
def isSpace (c : Char) : Bool :=
  c.toNat ∈ [0x20, 0xa0, 0x1680, 0x2028, 0x2029, 0x202f, 0x205f, 0x3000, 0xfeff] ||
    (0x09 ≤ c.toNat && c.toNat ≤ 0x0d) || (0x2000 ≤ c.toNat && c.toNat ≤ 0x200a)

def trim (chars : List Char) : String :=
  .ofList ((chars.dropWhile isSpace).reverse.dropWhile isSpace).reverse

/-- The search of both lists, in the order in which the users list compares. -/
def matchesSearch (context : ListContext) (u : User) (search : String) : Bool :=
  let pattern := "%" ++ search ++ "%"
  context.ilike u.fullname pattern || context.ilike u.email pattern ||
    context.ilike u.username pattern

/-! ### Users -/

def UserStatus.name : UserStatus → String
  | .pending => "pending"
  | .waitingDeposit => "waiting_deposit"
  | .active => "active"
  | .inactive => "inactive"
  | .rejected => "rejected"

inductive UserSortBy where
  | createdAt
  | updatedAt
  | id
  | username
  deriving DecidableEq, Repr

structure UsersQuery where
  role : Option String := none
  status : Option String := none
  search : Option String := none
  sortBy : UserSortBy := .createdAt
  sortOrder : SortOrder := .desc

/-- The columns that `findAllUsers` selects. -/
structure ListedUser where
  id : Uuid
  email : String
  fullname : String
  username : String
  status : UserStatus
  roleId : UserRole
  timestamps : Timestamps
  deriving DecidableEq

/-- `ORDER BY` the column that `sortByMap` gives for a field. -/
def UserSortBy.column (context : ListContext) : UserSortBy → OrderBy ListedUser
  | .createdAt => (OrderBy.ofLinearOrder Timestamp).on (·.timestamps.createdAt)
  | .updatedAt => (OrderBy.ofLinearOrder Timestamp).on (·.timestamps.updatedAt)
  | .id => (OrderBy.ofLinearOrder Uuid).on (·.id)
  | .username => context.collation.on (·.username)

def UsersQuery.orderBy (context : ListContext) (options : UsersQuery) : OrderBy ListedUser :=
  options.sortOrder.of (options.sortBy.column context)

/-- One role, or several that are separated by commas. -/
def hasRole (u : User) (role : String) : Bool :=
  match (role.toList.splitOn ',').map trim with
  | [role] => u.roleId.name = role
  | roles => u.roleId.name ∈ roles

def UsersQuery.accepts (context : ListContext) (options : UsersQuery) (u : User) : Bool :=
  whereGiven options.role (hasRole u) && whereGiven options.status (u.status.name = ·) &&
    whereGiven options.search (matchesSearch context u)

/-- The users that match a query. -/
def Database.usersOf (context : ListContext) (options : UsersQuery) (d : Database) :
    List ListedUser :=
  ((d.rows .users).filter (options.accepts context)).map fun u =>
    ⟨u.id, u.email, u.fullname, u.username, u.status, u.roleId, context.users u.id⟩

def findAllUsers (context : ListContext) (options : UsersQuery)
    (plan : Plan (options.orderBy context)) (page : ℕ := 1) (limit : ℕ := 10) :
    Program (Page ListedUser) :=
  paginateBy plan (Database.usersOf context options) page limit

/-! ### Loans -/

def LoanStatus.name : LoanStatus → String
  | .pending => "pending"
  | .approved => "approved"
  | .rejected => "rejected"
  | .active => "active"
  | .completed => "completed"

inductive LoanSortBy where
  | createdAt
  | updatedAt
  | id
  | status
  | principalAmount
  deriving DecidableEq, Repr

structure LoansQuery where
  status : Option String := none
  search : Option String := none
  userId : Option Uuid := none
  sortBy : LoanSortBy := .createdAt
  sortOrder : SortOrder := .desc

/-- A loan, with the columns of its user and its period that `findAllWithPagination` selects. -/
structure LoanWithUser where
  loan : Loan
  timestamps : Timestamps
  fullname : String
  tenor : ℕ
  interestRate : Numeric 10 4
  deriving DecidableEq

def LoanSortBy.column (context : ListContext) : LoanSortBy → OrderBy LoanWithUser
  | .createdAt => (OrderBy.ofLinearOrder Timestamp).on (·.timestamps.createdAt)
  | .updatedAt => (OrderBy.ofLinearOrder Timestamp).on (·.timestamps.updatedAt)
  | .id => (OrderBy.ofLinearOrder Uuid).on (·.loan.id)
  | .status => context.collation.on (·.loan.status.name)
  | .principalAmount => (OrderBy.ofLinearOrder ℤ).on (·.loan.principalAmount.units)

def LoansQuery.orderBy (context : ListContext) (options : LoansQuery) : OrderBy LoanWithUser :=
  options.sortOrder.of (options.sortBy.column context)

def LoansQuery.accepts (context : ListContext) (options : LoansQuery) (l : Loan) (u : User) :
    Bool :=
  whereGiven options.status (l.status.name = ·) && options.userId.all (l.userId = ·) &&
    whereGiven options.search (matchesSearch context u)

/-- The row of a loan in the join. -/
def Database.joinLoan (d : Database) (l : Loan) : Option (Loan × User × LoanPeriod) := do
  let u ← d.find .users l.userId
  let period ← d.find .loanPeriods l.loanPeriodId
  pure (l, u, period)

/-- The loans that match a query, with their users and periods. -/
def Database.loansOf (context : ListContext) (options : LoansQuery) (d : Database) :
    List LoanWithUser :=
  let rows := (d.rows .loans).filterMap d.joinLoan
  (rows.filter fun row => options.accepts context row.1 row.2.1).map fun row =>
    ⟨row.1, context.loans row.1.id, row.2.1.fullname, row.2.2.tenor, row.2.2.interestRate⟩

def findAllWithPagination (context : ListContext) (options : LoansQuery)
    (plan : Plan (options.orderBy context)) (page : ℕ := 1) (limit : ℕ := 10) :
    Program (Page LoanWithUser) :=
  paginateBy plan (Database.loansOf context options) page limit

/-! ### Partitions -/

section Partitions

variable {context : ListContext} {d : Database} {limit : ℕ}

theorem nodup_ids_usersOf (options : UsersQuery) :
    ((d.usersOf context options).map (·.id)).Nodup := by
  rw [Database.usersOf, List.map_map]
  exact (List.filter_sublist.map _).nodup (d.table .users).nodup

theorem loan_of_joinLoan {l : Loan} {row : Loan × User × LoanPeriod} (h : row ∈ d.joinLoan l) :
    row.1 = l := by
  simp only [Database.joinLoan, Option.pure_def, Option.bind_eq_bind, Option.mem_def,
    Option.bind_eq_some_iff, Option.some.injEq] at h
  obtain ⟨u, -, period, -, rfl⟩ := h
  rfl

theorem nodup_ids_loansOf (options : LoansQuery) :
    ((d.loansOf context options).map (·.loan.id)).Nodup := by
  have hrows := (d.table .loans).nodup
  have hjoin : (((d.rows .loans).filterMap d.joinLoan).map (·.1.id)).Nodup := by
    rw [List.Nodup, List.pairwise_map, List.pairwise_filterMap]
    refine (List.pairwise_map.1 hrows).imp fun hne row hrow row' hrow' hsame => hne ?_
    rw [loan_of_joinLoan hrow, loan_of_joinLoan hrow'] at hsame
    exact hsame
  rw [Database.loansOf, List.map_map]
  exact (List.filter_sublist.map _).nodup hjoin

theorem SortOrder.eq_of_tied {α κ : Type} [LinearOrder κ] {f : α → κ} {order : SortOrder}
    {a b : α}
    (hab : (order.of ((OrderBy.ofLinearOrder κ).on f)).le a b = true)
    (hba : (order.of ((OrderBy.ofLinearOrder κ).on f)).le b a = true) : f a = f b := by
  cases order with
  | asc => exact le_antisymm (of_decide_eq_true hab) (of_decide_eq_true hba)
  | desc => exact le_antisymm (of_decide_eq_true hba) (of_decide_eq_true hab)

/-- Rows that are ordered by a column that tells them all apart are never tied, so their pages are a
partition. -/
theorem fetchPartitions_of_key {α κ : Type} [LinearOrder κ] {f : α → κ} {order : SortOrder}
    {rows : Database → List α} (hlimit : 1 ≤ limit) (hkey : ((rows d).map f).Nodup)
    (plan : Plan (order.of ((OrderBy.ofLinearOrder κ).on f))) :
    FetchPartitions (paginateBy plan rows · limit) (rows d) d := by
  refine (fetchPartitions_iff hlimit hkey.of_map).2 (fun a ha k => ?_) plan
  refine not_straddles_of_untied hkey.of_map (fun b hb hab hba => ?_) _
  exact List.inj_on_of_nodup_map hkey hb ha (SortOrder.eq_of_tied hba hab)

theorem findAllUsers_by_id (hlimit : 1 ≤ limit) {options : UsersQuery} (hid : options.sortBy = .id)
    (plan : Plan (options.orderBy context)) :
    FetchPartitions (findAllUsers context options plan · limit) (d.usersOf context options) d := by
  obtain ⟨role, status, search, sortBy, sortOrder⟩ := options
  obtain rfl : sortBy = .id := hid
  exact fetchPartitions_of_key hlimit (nodup_ids_usersOf _) plan

theorem findAllWithPagination_by_id (hlimit : 1 ≤ limit) {options : LoansQuery}
    (hid : options.sortBy = .id) (plan : Plan (options.orderBy context)) :
    FetchPartitions (findAllWithPagination context options plan · limit)
      (d.loansOf context options) d := by
  obtain ⟨status, search, userId, sortBy, sortOrder⟩ := options
  obtain rfl : sortBy = .id := hid
  exact fetchPartitions_of_key hlimit (nodup_ids_loansOf _) plan

/-- The pages of both lists are partitions, whatever order of the ties each of them is cut from,
exactly when none of them ends among tied rows. -/
theorem lists_partition_iff (hlimit : 1 ≤ limit) (usersQuery : UsersQuery)
    (loansQuery : LoansQuery) :
    ((∀ plan, FetchPartitions (findAllUsers context usersQuery plan · limit)
        (d.usersOf context usersQuery) d) ↔
      ∀ u ∈ d.usersOf context usersQuery, ∀ k,
        ¬ (usersQuery.orderBy context).Straddles (d.usersOf context usersQuery) u (k * limit)) ∧
    ((∀ plan, FetchPartitions (findAllWithPagination context loansQuery plan · limit)
        (d.loansOf context loansQuery) d) ↔
      ∀ l ∈ d.loansOf context loansQuery, ∀ k,
        ¬ (loansQuery.orderBy context).Straddles (d.loansOf context loansQuery) l (k * limit)) :=
  ⟨fetchPartitions_iff hlimit (nodup_ids_usersOf usersQuery).of_map,
    fetchPartitions_iff hlimit (nodup_ids_loansOf loansQuery).of_map⟩

end Partitions

/-- The administrators were inserted one after the other, and then the members at once. Texts are
compared character by character. -/
def seededContext : ListContext where
  collation := .ofLinearOrder String
  ilike value pattern := value = pattern
  users id := if id < 3 then ⟨id, id⟩ else ⟨3, 3⟩
  loans id := ⟨id, id⟩

theorem lists_partition_of_one_page :
    (∀ plan, FetchPartitions (findAllUsers seededContext {} plan · 10)
      (seeded.usersOf seededContext {}) seeded) ∧
    ∀ plan, FetchPartitions (findAllWithPagination seededContext {} plan · 10)
      (withLoan.loansOf seededContext {}) withLoan :=
  ⟨(lists_partition_iff (by decide) {} {}).1.2 fun u _ =>
      not_straddles_of_length_le (by decide) u,
    (lists_partition_iff (by decide) {} {}).2.2 fun l _ =>
      not_straddles_of_length_le (by decide +kernel) l⟩

/-- A second member, inserted together with the first one. -/
def twoMembers : Database := seeded.setTable .users
  ⟨seededUsers ++ [seededUser 4 "sari.dewi@gmail.com" "Sari Dewi" "sari_dewi" .member], by decide⟩

/-- With pages of one user, a member can be on no page. -/
theorem not_findAllUsers_partitions : ¬ ∀ plan, FetchPartitions
    (findAllUsers seededContext {} plan · 1) (twoMembers.usersOf seededContext {}) twoMembers := by
  intro h
  have hnodup : (twoMembers.usersOf seededContext {}).Nodup := (nodup_ids_usersOf {}).of_map
  have hcut : ∃ u ∈ twoMembers.usersOf seededContext {},
      (UsersQuery.orderBy seededContext {}).Straddles (twoMembers.usersOf seededContext {}) u
        (1 * 1) := by decide
  obtain ⟨u, hu, hcut⟩ := hcut
  exact (fetchPartitions_iff (Nat.le_refl 1) hnodup).1 h u hu 1 hcut

end LumbungMesari
