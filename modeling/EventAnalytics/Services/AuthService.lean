import EventAnalytics.Db.Registry
import EventAnalytics.Db.Session
import EventAnalytics.Services.UserService

/-! `app/services/auth_service.py`: register and login. -/
namespace EventAnalytics.Services

open Library Db

/-- `app/core/security.py`. The bcrypt hash and its check raise a `ValueError`, here `none`,
for a password with a NUL. A password is accepted against each of its hashes. -/
structure Security where
  hashPassword : Nat → String → Option String
  verifyPassword : String → String → Option Bool
  createAccessToken : UUID → String → String
  hash_isSome : ∀ salt password, password.length ≤ 128 →
    ((hashPassword salt password).isSome ↔ isText password = true)
  hash_text : ∀ salt password hashed, hashPassword salt password = some hashed →
    isText hashed = true
  verify_hash : ∀ salt password hashed, hashPassword salt password = some hashed →
    verifyPassword password hashed = some true

/-- No email that `EmailStr` takes has a NUL. -/
structure UserCreate where
  email : String
  password : String
  fullName : Option String := none
  email_text : isText email = true := by decide +kernel
  password_le : password.length ≤ 128 := by decide +kernel
  deriving DecidableEq, Repr

def unauthorizedError (message : String) : Exn := .appError "unauthorized" message 401

def getRole (name : String) : AuthApp Role := do
  match ← authQuery (.selectRole name) with
  | some role => pure role
  | none => .raise (.runtimeError ("Role not seeded: " ++ name))

/-- `selectinload(User.role)`, for a row that a query has returned. -/
def loadRole (row : UserRow) : AuthApp LoadedUser := do
  match ← authQuery (.selectRoleById row.roleId) with
  | some role => pure ⟨row, role⟩
  | none => .raise (.exn .attributeError)

def register (sec : Security) (str : Lowercase) (data : UserCreate) (roleName : String) :
    AuthApp LoadedUser := do
  match ← authQuery (.selectByEmail data.email) with
  | some _ => .raise (.exn (conflictError "Email already registered" "email_taken"))
  | none =>
    let role ← getRole roleName
    let salt ← authQuery .gensalt
    match sec.hashPassword salt data.password with
    | none => .raise (.exn .valueError)
    | some hashed =>
      -- the flush: the id is drawn when the row is inserted
      let id ← authQuery .uuid4
      let row ← authQuery (.insertUser
        { id := id
          email := str.lower data.email
          hashedPassword := hashed
          fullName := data.fullName
          roleId := role.id })
      let user ← loadRole row
      match ← authQuery (.selectUser user.row.id) with
      | some row => loadRole row
      | none => .raise (.exn .noResultFound)

def authenticate (sec : Security) (str : Lowercase) (email password : String) :
    AuthApp (LoadedUser × String) := do
  match ← authQuery (.selectByEmail (str.lower email)) with
  | none => .raise (.exn (unauthorizedError "Invalid email or password"))
  | some row =>
    let user ← loadRole row
    match sec.verifyPassword password user.row.hashedPassword with
    | none => .raise (.exn .valueError)
    | some false => .raise (.exn (unauthorizedError "Invalid email or password"))
    | some true =>
      if !user.row.isActive then .raise (.exn (unauthorizedError "User is inactive"))
      else pure (user, sec.createAccessToken user.row.id user.role.name)

/-- `POST /auth/register`, in the session of `get_db`. -/
def registerRequest (sec : Security) (str : Lowercase) (data : UserCreate) (roleName : String) :
    AuthApp LoadedUser :=
  getDb (authQuery .commit) (authQuery .rollback) (register sec str data roleName)

/-- `POST /auth/login`. -/
def loginRequest (sec : Security) (str : Lowercase) (email password : String) :
    AuthApp (LoadedUser × String) :=
  getDb (authQuery .commit) (authQuery .rollback) (authenticate sec str email password)

end EventAnalytics.Services
