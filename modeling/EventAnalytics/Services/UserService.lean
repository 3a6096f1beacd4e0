import EventAnalytics.Db.Accounts

/-! `app/services/user_service.py`: the admin update with optimistic locking. -/
namespace EventAnalytics.Services

open Library Db

structure UserAdminUpdate where
  fullName : Option String := none
  isActive : Option Bool := none
  role : Option String := none
  version : Nat
  deriving DecidableEq, Repr

def roleNames : List String := ["admin", "analyst", "client_app"]

def notFoundError (message : String) : Exn := .appError "not_found" message 404

def conflictError (message code : String) : Exn := .appError code message 409

/-- `values["role_id"]`, when the update names a role. -/
def roleIdOf (data : UserAdminUpdate) : UserApp (Option Nat) :=
  match data.role with
  | none => pure none
  | some name =>
    if name ∈ roleNames then do
      match ← execute (.selectRole name) with
      | some role => pure (some role.id)
      | none => .raise (notFoundError "Role not found")
    else .raise (conflictError ("Invalid role: " ++ name) "conflict")

/-- What the session makes of a loaded object when an ORM `UPDATE` is executed:
the columns of an object that satisfies the `WHERE` clause follow, the
relationship does not. -/
def synchronize (user : LoadedUser) (version : Nat) (values : UserValues) : LoadedUser :=
  if user.row.version = version then { user with row := values.apply user.row } else user

def updateUser (userId : UUID) (data : UserAdminUpdate) : UserApp LoadedUser := do
  match ← execute (.selectUser userId) with
  | none => .raise (notFoundError "User not found")
  | some user =>
    let roleId ← roleIdOf data
    let values : UserValues :=
      { version := user.row.version + 1
        fullName := data.fullName
        isActive := data.isActive
        roleId := roleId }
    let updated ← execute (.updateUser userId data.version values)
    if updated then
      -- the row comes back as the object that is already in the session
      match ← execute (.selectUser userId) with
      | none => .raise .noResultFound
      | some _ => pure (synchronize user data.version values)
    else
      .raise (conflictError "Version conflict: resource was modified by another request"
        "version_conflict")

end EventAnalytics.Services
