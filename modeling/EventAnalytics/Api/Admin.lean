import EventAnalytics.Services.AdminUpdate
import EventAnalytics.Services.AuthService

/-! The admin update as a request: `app/core/rbac.py`, `app/deps.py` and the route of
`app/api/v1/admin.py`. The session of the request is also the one that has loaded its
caller. -/
namespace EventAnalytics.Api

open Library Db Services

inductive RoleName
  | admin
  | analyst
  | clientApp
  deriving DecidableEq, Repr

def RoleName.ofString? : String → Option RoleName
  | "admin" => some admin
  | "analyst" => some analyst
  | "client_app" => some clientApp
  | _ => none

inductive Permission
  | eventsWrite
  | eventsBatch
  | eventsRead
  | metricsRead
  | usersManage
  | jobsTrigger
  | queueRead
  | healthRead
  deriving DecidableEq, Repr

def Permission.value : Permission → String
  | eventsWrite => "events:write"
  | eventsBatch => "events:batch"
  | eventsRead => "events:read"
  | metricsRead => "metrics:read"
  | usersManage => "users:manage"
  | jobsTrigger => "jobs:trigger"
  | queueRead => "queue:read"
  | healthRead => "health:read"

def rolePermissions : RoleName → List Permission
  | .clientApp => [.eventsWrite, .eventsBatch, .healthRead]
  | .analyst => [.eventsWrite, .eventsBatch, .eventsRead, .metricsRead, .healthRead]
  | .admin => [.eventsWrite, .eventsBatch, .eventsRead, .metricsRead, .usersManage, .jobsTrigger,
      .queueRead, .healthRead]

def hasPermission (role : String) (permission : Permission) : Bool :=
  match RoleName.ofString? role with
  | some roleName => (rolePermissions roleName).contains permission
  | none => false

def forbiddenError (message : String) : Exn := .appError "forbidden" message 403

/-- The bearer token of a request, once it has been decoded. -/
inductive Credentials
  | missing
  | invalid
  | subject (userId : UUID)
  deriving DecidableEq, Repr

def getCurrentUser : Credentials → UserApp LoadedUser
  | .missing => .raise (unauthorizedError "Authentication required")
  | .invalid => .raise (unauthorizedError "Invalid or expired token")
  | .subject userId => do
    match ← execute (.selectUser userId) with
    | some user =>
      if user.row.isActive then pure user
      else .raise (unauthorizedError "User inactive or not found")
    | none => .raise (unauthorizedError "User inactive or not found")

def requirePermission (permission : Permission) (user : LoadedUser) : UserApp LoadedUser :=
  if hasPermission user.role.name permission then pure user
  else .raise (forbiddenError ("Missing permission: " ++ permission.value))

structure UserRead where
  id : UUID
  email : String
  fullName : Option String
  isActive : Bool
  role : String
  version : Nat
  createdAt : Nat
  deriving DecidableEq, Repr

def toUserRead (user : LoadedUser) : UserRead where
  id := user.row.id
  email := user.row.email
  fullName := user.row.fullName
  isActive := user.row.isActive
  role := user.role.name
  version := user.row.version
  createdAt := user.row.createdAt

/-- `PATCH /admin/users/{user_id}`. -/
def patchUser (credentials : Credentials) (userId : UUID) (body : UserAdminUpdate) :
    UserApp UserRead :=
  Db.getDb (execute .commit) (execute .rollback) do
    let user ← getCurrentUser credentials
    let _ ← requirePermission .usersManage user
    let updated ← updateUser userId body
    pure (toUserRead updated)

def UserRead.view (read : UserRead) : UserView where
  role := some read.role
  fullName := read.fullName
  isActive := read.isActive
  version := read.version

section Request

variable {i : Nat} {s s' : UserSession} {u : UUID} {body : UserAdminUpdate} {read : UserRead}
  {credentials : Credentials} {user : LoadedUser}

theorem upToDate_selectUser (hfresh : UpToDate i s)
    (h : sessionEffect i s (.selectUser u) = some (.ok (some user), s')) :
    s'.db = s.db ∧ UpToDate i s' := by
  obtain ⟨row, fresh, hrow, hload, -, rfl⟩ := sessionEffect_selectUser h
  refine ⟨rfl, fun held hheld => ?_⟩
  rcases IdentityMap.mem_merge hheld with hheld | rfl
  · exact hfresh held hheld
  · have hid : held.row.id = u := by
      rw [load_row hload, visible?_id hrow]
    change (s.db.visible? i held.row.id).bind s.db.load = some held
    rw [hid, hrow]
    exact hload

theorem run_getCurrentUser (hfresh : UpToDate i s)
    (h : (getCurrentUser credentials).run (sessionEffect i) s = some (.ok user, s')) :
    s'.db = s.db ∧ UpToDate i s' := by
  cases credentials with
  | missing => cases h
  | invalid => cases h
  | subject userId =>
      unfold getCurrentUser at h
      obtain ⟨answer, s₁, hselect, h⟩ := Prog.run_perform_inv h
      cases answer with
      | none => cases h
      | some found =>
          dsimp only at h
          split at h
          · cases h
            exact upToDate_selectUser hfresh hselect
          · cases h

theorem run_requirePermission {permission : Permission} {user' : LoadedUser}
    (h : (requirePermission permission user).run (sessionEffect i) s = some (.ok user', s')) :
    s' = s ∧ hasPermission user.role.name permission = true := by
  unfold requirePermission at h
  split at h
  · rename_i hpermission
    cases h
    exact ⟨rfl, hpermission⟩
  · cases h

theorem row?_commit {w : Accounts} {old new : UserRow} (hown : w.own? i = some new)
    (hid : new.id = u) (hold : w.row? u = some old) :
    (w.commitTx i).row? u = some new ∧ (w.commitTx i).roles = w.roles := by
  subst hid
  unfold Accounts.commitTx
  rw [hown]
  dsimp only
  rw [hold]
  exact ⟨find?_replace rfl hold, rfl⟩

theorem stored_of_roles {w w' : Accounts} (hroles : w'.roles = w.roles) (row : UserRow) :
    stored w' row = stored w row := by
  unfold stored storedRole
  rw [hroles]

theorem run_patchUser {w : Accounts} (hown : w.own? i = none)
    (h : (patchUser credentials u body).run (sessionEffect i) ⟨w, .empty⟩ =
      some (.ok read, s')) :
    ∃ s₁ s₂ row found roleId updated, Updated i s₁ u body row found roleId updated s₂ ∧
      s₁.db = w ∧ UpToDate i s₁ ∧ read = toUserRead updated ∧ w.row? u = some row ∧
      s'.db.row? u = some ((valuesOf found body roleId).apply row) ∧
      s'.db.roles = s₂.db.roles := by
  obtain ⟨s₂, s₃, hhandler, hcommit, hrollback⟩ := run_getDb_inv h
  cases hcommit
  cases hrollback
  obtain ⟨caller, s₁, hcaller, hchecked⟩ := Prog.run_bind_inv hhandler
  have hempty : UpToDate i ⟨w, .empty⟩ := fun held hheld => absurd hheld List.not_mem_nil
  obtain ⟨hdb, hfresh⟩ := run_getCurrentUser hempty hcaller
  obtain ⟨caller', s₁', hpermission, hbody⟩ := Prog.run_bind_inv hchecked
  obtain ⟨rfl, -⟩ := run_requirePermission hpermission
  obtain ⟨updated, s₂', hupdate, hread⟩ := Prog.run_bind_inv hbody
  cases hread
  obtain ⟨row, found, roleId, hupdated⟩ := run_updateUser hupdate
  have hid : row.id = u := visible?_id hupdated.visible
  have hrow : w.row? u = some row := by
    have hvisible := hupdated.visible
    rw [hdb, Accounts.visible?, hown] at hvisible
    exact hvisible
  have hown' : s₂.db.own? i = some ((valuesOf found body roleId).apply row) := by
    rw [hupdated.db]
    exact own?_write _ _
  have hrow' : s₂.db.row? u = some row := by
    rw [hupdated.db, hdb]
    exact hrow
  obtain ⟨hcommitted, hroles⟩ := row?_commit hown' hid hrow'
  exact ⟨s₁', s₂, row, found, roleId, updated, hupdated, hdb, hfresh, rfl, hrow, hcommitted, hroles⟩

/-- The answer to a request of any caller shows the committed row if and only if the
request leaves the role as it is. -/
theorem patchUser_view_iff {w : Accounts} (hown : w.own? i = none)
    (hids : (w.roles.map Role.id).Nodup)
    (h : (patchUser credentials u body).run (sessionEffect i) ⟨w, .empty⟩ =
      some (.ok read, s')) :
    (∃ new, s'.db.row? u = some new ∧ read.view = stored s'.db new) ↔
      ∀ name, body.role = some name →
        ∃ row, w.row? u = some row ∧ storedRole w row = some name := by
  obtain ⟨s₁, s₂, row, found, roleId, updated, hupdated, rfl, hfresh, rfl, hrow, hnew, hroles⟩ :=
    run_patchUser hown h
  obtain ⟨fresh, hload, hfound⟩ := hupdated.loaded
  rw [hfresh.object_eq hupdated.visible hload] at hfound
  have hview : (∃ new, s'.db.row? u = some new ∧ (toUserRead updated).view = stored s'.db new) ↔
      Agrees s₁.db body row found := by
    rw [← hupdated.shown_iff hids, ← stored_of_roles hroles, hnew]
    simp only [Option.some.injEq, exists_eq_left']
    rfl
  rw [hview, hfound, agrees_load_iff hload, hrow]
  simp only [Option.some.injEq, exists_eq_left']

end Request

end EventAnalytics.Api
