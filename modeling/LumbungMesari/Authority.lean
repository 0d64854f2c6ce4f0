import LumbungMesari.Controllers
import LumbungMesari.ExpensesAccess
import LumbungMesari.WrittenTables

/-!
# What each role may change

A policy of single writes, by the role of the user a request acts for. An administrator moves money
and admits members. A superadministrator decides on loans besides. A member may ask for a loan and
confirm an address, and no more. Nobody changes who a user is, or what role it has.

A transaction of allowed writes changes the database within the bounds of the role (`ChangedBy`). A
registration and a new one-time password are single statements, and change it within the same bounds.
-/

namespace LumbungMesari

open Sql

/-! ### Users -/

/-- The columns of a user that no request changes once they are set. -/
structure Identity where
  email : String
  fullname : String
  username : String
  password : String
  role : UserRole
  deriving DecidableEq

/-- How far a user has come. -/
structure Standing where
  status : UserStatus
  otpVerified : Bool
  deriving DecidableEq

namespace Standing

def registered : Standing := ⟨.pending, false⟩

def verified : Standing := ⟨.waitingDeposit, true⟩

end Standing

def User.identity (u : User) : Identity := ⟨u.email, u.fullname, u.username, u.password, u.roleId⟩

def User.standing (u : User) : Standing := ⟨u.status, u.otpVerified⟩

namespace Database

def identities (d : Database) (id : Uuid) : Option Identity := (d.find .users id).map User.identity

/-- The role of a user. One who has yet to register will be a member. -/
def roleFor (d : Database) (id : Uuid) : UserRole :=
  ((d.identities id).map Identity.role).getD .member

/-- How far a user has come. One who has yet to register will be pending. -/
def standingFor (d : Database) (id : Uuid) : Standing :=
  ((d.find .users id).map User.standing).getD .registered

end Database

/-- The role a request is made in. Whoever comes without a token counts as a member. -/
def ApiRequest.role {context : ApiContext} (roles : Uuid → UserRole) (request : ApiRequest context) :
    UserRole := (request.caller.map roles).getD .member

/-! ### Bounds -/

def UserRole.rank : UserRole → ℕ
  | .member => 0
  | .admin => 1
  | .superadmin => 2

/-- The tables that are only seeded. -/
def TableName.fixed : TableName → Bool
  | .loanPeriods | .incomeCategories | .expenseCategories => true
  | _ => false

/-- The tables that an operator works on. Members get rows of the principal savings too. -/
def TableName.operated : TableName → Bool
  | .installments | .mandatorySavings | .incomes | .expenses | .cashbookTransactions => true
  | _ => false

/-- Rows have been added at the end, all of one kind. -/
def Appends {α : Type} (P : α → Prop) (old new : List α) : Prop :=
  ∃ added, new = old ++ added ∧ ∀ r ∈ added, P r

/-- How far users of a role change the database, who act for `callers`. -/
structure ChangedBy (role : UserRole) (callers : Uuid → Prop) (d d' : Database) : Prop where
  identities : ∀ {id i}, d.identities id = some i → d'.identities id = some i
  newcomers : ∀ {id i}, d.identities id = none → d'.identities id = some i → i.role = .member
  settings : ∀ t : TableName, t.fixed = true → d'.table t = d.table t
  loans : role ≠ .superadmin → Appends (fun loan => loan.status = .pending ∧ callers loan.userId)
    (d.rows .loans) (d'.rows .loans)
  money : role = .member → d'.balances = d.balances ∧
    ∀ t : TableName, t.operated = true → d'.table t = d.table t
  principalSavings : role = .member →
    Appends (fun p => p.status = .pending ∧ callers p.userId)
      (d.rows .principalSavings) (d'.rows .principalSavings)
  standings : role = .member → ∀ id, d'.standingFor id = d.standingFor id ∨
    callers id ∧ d'.standingFor id = .verified

section Bounds

variable {α : Type} {P Q : α → Prop} {xs ys zs : List α} {role role' : UserRole}
  {callers callers' : Uuid → Prop} {d d' d'' : Database}

theorem Appends.refl : Appends P xs xs := ⟨[], (List.append_nil xs).symm, fun _ hr => by cases hr⟩

theorem Appends.trans (h : Appends P xs ys) (h' : Appends P ys zs) : Appends P xs zs := by
  obtain ⟨added, rfl, hadded⟩ := h
  obtain ⟨added', rfl, hadded'⟩ := h'
  exact ⟨added ++ added', List.append_assoc .., fun r hr =>
    (List.mem_append.1 hr).elim (hadded r) (hadded' r)⟩

theorem Appends.mono (hPQ : ∀ r, P r → Q r) (h : Appends P xs ys) : Appends Q xs ys := by
  obtain ⟨added, rfl, hadded⟩ := h
  exact ⟨added, rfl, fun r hr => hPQ r (hadded r hr)⟩

namespace ChangedBy

theorem refl : ChangedBy role callers d d where
  identities h := h
  newcomers hnone hsome := by
    rw [hnone] at hsome
    cases hsome
  settings _ _ := rfl
  loans _ := .refl
  money _ := ⟨rfl, fun _ _ => rfl⟩
  principalSavings _ := .refl
  standings _ _ := .inl rfl

theorem trans (h : ChangedBy role callers d d') (h' : ChangedBy role callers d' d'') :
    ChangedBy role callers d d'' where
  identities hid := h'.identities (h.identities hid)
  newcomers {id i} hnone hsome := by
    cases hid : d'.identities id with
    | none => exact h'.newcomers hid hsome
    | some i' =>
        have hmember := h.newcomers hnone hid
        have hkept := h'.identities hid
        rw [hsome, Option.some.injEq] at hkept
        rwa [hkept]
  settings t ht := (h'.settings t ht).trans (h.settings t ht)
  loans hrole := (h.loans hrole).trans (h'.loans hrole)
  money hrole := ⟨(h'.money hrole).1.trans (h.money hrole).1, fun t ht =>
    ((h'.money hrole).2 t ht).trans ((h.money hrole).2 t ht)⟩
  principalSavings hrole := (h.principalSavings hrole).trans (h'.principalSavings hrole)
  standings hrole id := by
    rcases h'.standings hrole id with hsame | hverified
    · rw [hsame]
      exact h.standings hrole id
    · exact .inr hverified

theorem mono (h : ChangedBy role callers d d') (hrank : role.rank ≤ role'.rank)
    (hcallers : ∀ id, callers id → callers' id) : ChangedBy role' callers' d d' := by
  have hmember : role' = .member → role = .member := by
    rintro rfl
    cases role <;> simp [UserRole.rank] at hrank ⊢
  have hsuperadmin : role' ≠ .superadmin → role ≠ .superadmin := by
    rintro hrole rfl
    cases role' <;> simp [UserRole.rank] at hrank hrole
  exact {
    identities := h.identities
    newcomers := h.newcomers
    settings := h.settings
    loans := fun hrole => (h.loans (hsuperadmin hrole)).mono fun loan hloan =>
      ⟨hloan.1, hcallers _ hloan.2⟩
    money := fun hrole => h.money (hmember hrole)
    principalSavings := fun hrole => (h.principalSavings (hmember hrole)).mono fun p hp =>
      ⟨hp.1, hcallers _ hp.2⟩
    standings := fun hrole id => (h.standings (hmember hrole) id).imp_right fun hid =>
      ⟨hcallers _ hid.1, hid.2⟩ }

theorem roleFor (h : ChangedBy role callers d d') : d'.roleFor = d.roleFor := by
  funext id
  rw [Database.roleFor, Database.roleFor]
  cases hid : d.identities id with
  | some i => rw [h.identities hid]
  | none =>
      cases hid' : d'.identities id with
      | none => rfl
      | some i => exact h.newcomers hid hid'

end ChangedBy

end Bounds

/-! ### The policy -/

/-- Writes of other tables than the users. -/
inductive Write.Granted (role : UserRole) (callers : Uuid → Prop) : Write → Prop where
  | asked {loan : Loan} (pending : loan.status = .pending) (mine : callers loan.userId) :
      Granted role callers (.insert .loans loan)
  | owed {p : PrincipalSavings} (pending : p.status = .pending) (mine : callers p.userId) :
      Granted role callers (.insert .principalSavings p)
  | decided {w : Write} (superadmin : role = .superadmin) (loans : w.table? = some .loans) :
      Granted role callers w
  | operated {w : Write} (operates : role.operates = true)
      (table : ∀ t, w.table? = some t → t.operated = true ∨ t = .principalSavings) :
      Granted role callers w

/-- The writes of a transaction. Nobody registers in one. -/
inductive Write.Allowed (role : UserRole) (callers : Uuid → Prop) (d : Database) : Write → Prop where
  | granted {w : Write} (granted : w.Granted role callers) : Allowed role callers d w
  | updated {u : User} (identity : d.identities u.id = some u.identity)
      (standing : role.operates = true ∨ callers u.id ∧ u.standing = .verified) :
      Allowed role callers d (.update .users u)

section Policy

variable {role : UserRole} {callers : Uuid → Prop} {d d' : Database} {w : Write} {ws : List Write}

theorem operates_of_superadmin (h : role = .superadmin) : role.operates = true := by
  rw [h]
  rfl

theorem not_operates (h : role = .member) : ¬role.operates = true := by
  rw [h]
  decide

theorem Write.Granted.spares_users (h : w.Granted role callers) : w.Spares .users := by
  cases h with
  | asked | owed => simp [Write.Spares, Write.table?]
  | decided _ loans => simp [Write.Spares, loans]
  | operated _ table =>
      intro husers
      rcases table _ husers with h | h <;> cases h

theorem identities_congr (h : d'.table .users = d.table .users) : d'.identities = d.identities := by
  funext id
  rw [Database.identities, Database.find_congr h, Database.identities]

theorem standingFor_congr (h : d'.table .users = d.table .users) : d'.standingFor = d.standingFor := by
  funext id
  rw [Database.standingFor, Database.find_congr h, Database.standingFor]

theorem ChangedBy.of_users (husers : d'.table .users = d.table .users)
    (hsettings : ∀ t : TableName, t.fixed = true → d'.table t = d.table t)
    (hloans : role ≠ .superadmin → Appends (fun loan => loan.status = .pending ∧ callers loan.userId)
      (d.rows .loans) (d'.rows .loans))
    (hmoney : role = .member → d'.balances = d.balances ∧
      ∀ t : TableName, t.operated = true → d'.table t = d.table t)
    (hsavings : role = .member → Appends (fun p => p.status = .pending ∧ callers p.userId)
      (d.rows .principalSavings) (d'.rows .principalSavings)) : ChangedBy role callers d d' where
  identities h := by rwa [identities_congr husers]
  newcomers hnone hsome := by
    rw [identities_congr husers, hnone] at hsome
    cases hsome
  settings := hsettings
  loans := hloans
  money := hmoney
  principalSavings := hsavings
  standings _ id := .inl (congrFun (standingFor_congr husers) id)

theorem appends_insert {t : TableName} {P : Row t → Prop} {r : Row t} (h : P r) :
    Appends P (d.rows t) ((d.apply (.insert t r)).rows t) := by
  rw [Database.rows, Database.rows, Database.table_insert_self]
  cases hfind : (d.table t).find? (Row.id t r) with
  | none => exact ⟨[r], Table.rows_insert hfind, fun r' hr' => by rwa [List.mem_singleton.1 hr']⟩
  | some old =>
      rw [Table.insert_of_mem]
      · exact .refl
      · by_contra hmem
        rw [Table.find?_eq_none.2 hmem] at hfind
        cases hfind

theorem appends_of_spares {t : TableName} {P : Row t → Prop} (h : w.Spares t) :
    Appends P (d.rows t) ((d.apply w).rows t) := by
  rw [Database.rows, Database.rows, Database.table_apply h]
  exact .refl

theorem Write.Granted.changedBy (h : w.Granted role callers) : ChangedBy role callers d (d.apply w) := by
  have husers := Database.table_apply (d := d) h.spares_users
  cases h with
  | @asked loan pending mine =>
      have hothers : ∀ t, TableName.loans ≠ t → (d.apply (.insert .loans loan)).table t = d.table t :=
        fun t ht => d.table_insert_ne ht loan
      exact .of_users husers (fun t ht => hothers t (by rintro rfl; cases ht))
        (fun _ => appends_insert ⟨pending, mine⟩)
        (fun _ => ⟨rfl, fun t ht => hothers t (by rintro rfl; cases ht)⟩)
        (fun _ => appends_of_spares (by simp [Write.Spares, Write.table?]))
  | @owed p pending mine =>
      have hothers : ∀ t, TableName.principalSavings ≠ t →
          (d.apply (.insert .principalSavings p)).table t = d.table t :=
        fun t ht => d.table_insert_ne ht p
      exact .of_users husers (fun t ht => hothers t (by rintro rfl; cases ht))
        (fun _ => appends_of_spares (by simp [Write.Spares, Write.table?]))
        (fun _ => ⟨rfl, fun t ht => hothers t (by rintro rfl; cases ht)⟩)
        (fun _ => appends_insert ⟨pending, mine⟩)
  | decided superadmin loans =>
      have hoperates := operates_of_superadmin superadmin
      refine .of_users husers (fun t ht => Database.table_apply ?_) (fun h => absurd superadmin h)
        (fun h => absurd hoperates (not_operates h)) (fun h => absurd hoperates (not_operates h))
      rw [loans, ne_eq, Option.some.injEq]
      rintro rfl
      cases ht
  | operated operates table =>
      refine .of_users husers (fun t ht => Database.table_apply fun hw => ?_)
        (fun _ => appends_of_spares fun hw => ?_) (fun h => absurd operates (not_operates h))
        (fun h => absurd operates (not_operates h))
      · cases t <;> cases ht <;> simpa [TableName.operated] using table _ hw
      · simpa [TableName.operated] using table _ hw

/-! #### Users -/

theorem identities_update {u : User} (h : d.identities u.id = some u.identity) :
    (d.apply (.update .users u)).identities = d.identities := by
  funext id
  rw [Database.identities, Database.find_update]
  split
  · rename_i hid
    obtain rfl : u.id = id := hid
    rw [h]
    obtain ⟨u₀, hfound, -⟩ := Option.map_eq_some_iff.1 h
    rw [hfound]
    rfl
  · rfl

theorem standingFor_update {u : User} (h : d.identities u.id = some u.identity) (id : Uuid) :
    (d.apply (.update .users u)).standingFor id = if u.id = id then u.standing else d.standingFor id := by
  obtain ⟨u₀, hfound, -⟩ := Option.map_eq_some_iff.1 h
  rw [Database.standingFor, Database.find_update]
  split
  · rename_i hid
    obtain rfl : u.id = id := hid
    rw [hfound]
    rfl
  · rfl

theorem ChangedBy.of_user (hw : w.table? = some .users)
    (hidentities : ∀ {id i}, d.identities id = some i → (d.apply w).identities id = some i)
    (hnewcomers : ∀ {id i}, d.identities id = none → (d.apply w).identities id = some i →
      i.role = .member)
    (hstandings : role = .member → ∀ id, (d.apply w).standingFor id = d.standingFor id ∨
      callers id ∧ (d.apply w).standingFor id = .verified) :
    ChangedBy role callers d (d.apply w) := by
  have hspares : ∀ t, TableName.users ≠ t → w.Spares t := fun t ht => by
    rwa [Write.Spares, hw, ne_eq, Option.some.injEq]
  have hbalances : (d.apply w).balances = d.balances := by
    cases w with
    | addBalance => cases hw
    | insert | update | delete => rfl
  exact {
    identities := hidentities
    newcomers := hnewcomers
    settings := fun t ht => Database.table_apply (hspares t (by rintro rfl; cases ht))
    loans := fun _ => appends_of_spares (hspares _ (by decide))
    money := fun _ => ⟨hbalances, fun t ht =>
      Database.table_apply (hspares t (by rintro rfl; cases ht))⟩
    principalSavings := fun _ => appends_of_spares (hspares _ (by decide))
    standings := hstandings }

theorem ChangedBy.update {u : User} (h : d.identities u.id = some u.identity)
    (hstanding : role = .member → u.standing = d.standingFor u.id ∨
      callers u.id ∧ u.standing = .verified) :
    ChangedBy role callers d (d.apply (.update .users u)) := by
  refine .of_user rfl (fun hid => ?_) (fun hnone hsome => ?_) fun hrole id => ?_
  · rwa [identities_update h]
  · rw [identities_update h, hnone] at hsome
    cases hsome
  · rw [standingFor_update h]
    split
    · rename_i hid
      rw [← hid]
      exact hstanding hrole
    · exact .inl rfl

theorem ChangedBy.register {u : User} (hmember : u.roleId = .member)
    (hregistered : u.standing = .registered) :
    ChangedBy role callers d (d.apply (.insert .users u)) := by
  have hfind : ∀ id, (d.apply (.insert .users u)).find .users id =
      if u.id = id then (d.find .users id).or (some u) else d.find .users id :=
    fun id => Database.find_insert ..
  refine .of_user rfl (fun {id i} hid => ?_) (fun {id i} hnone hsome => ?_) fun _ id => ?_
  · obtain ⟨u₀, hfound, hi⟩ := Option.map_eq_some_iff.1 hid
    rw [Database.identities, hfind, hfound]
    split <;> exact congrArg some hi
  · rw [Database.identities, hfind, Option.map_eq_none_iff.1 hnone] at hsome
    split at hsome
    · cases hsome
      exact hmember
    · cases hsome
  · rw [Database.standingFor, hfind, Database.standingFor]
    split
    · cases d.find .users id with
      | none => exact .inl hregistered
      | some u₀ => exact .inl rfl
    · exact .inl rfl

theorem Write.Allowed.changedBy (h : w.Allowed role callers d) :
    ChangedBy role callers d (d.apply w) := by
  cases h with
  | granted granted => exact granted.changedBy
  | updated identity standing =>
      exact .update identity fun hrole => .inr (standing.resolve_left (not_operates hrole))

/-- What a transaction holds back stays allowed, whatever others commit. -/
theorem Write.Allowed.congr (hd : ∀ {id i}, d.identities id = some i → d'.identities id = some i)
    (h : w.Allowed role callers d) : w.Allowed role callers d' := by
  cases h with
  | granted granted => exact .granted granted
  | updated identity standing => exact .updated (hd identity) standing

theorem identities_allowed (h : ∀ w ∈ ws, w.Allowed role callers d) :
    (applyAll d ws).identities = d.identities := by
  induction ws generalizing d with
  | nil => rfl
  | cons w ws ih =>
      have hw : (d.apply w).identities = d.identities := by
        cases h w (List.mem_cons_self ..) with
        | granted granted => exact identities_congr (Database.table_apply granted.spares_users)
        | updated identity => exact identities_update identity
      rw [applyAll_cons, Database.store_apply, ih fun w' hw' => ?_, hw]
      refine (h w' (List.mem_cons_of_mem _ hw')).congr fun hid => ?_
      rwa [hw]

/-- A transaction of allowed writes keeps to the bounds of the role. -/
theorem changedBy_allowed (h : ∀ w ∈ ws, w.Allowed role callers d) :
    ChangedBy role callers d (applyAll d ws) := by
  induction ws generalizing d with
  | nil => exact .refl
  | cons w ws ih =>
      have hw := (h w (List.mem_cons_self ..)).changedBy
      exact hw.trans (ih fun w' hw' => (h w' (List.mem_cons_of_mem _ hw')).congr hw.identities)

end Policy

end LumbungMesari
