import EventAnalytics.Db.Accounts
import EventAnalytics.Text

/-! The `users` and `roles` tables as one request of the auth service meets them, with
their constraints. -/
namespace EventAnalytics.Db

open Library

/-- The columns that an `INSERT INTO users` binds. -/
structure NewUser where
  id : UUID
  email : String
  hashedPassword : String
  fullName : Option String
  roleId : Nat
  deriving DecidableEq, Repr

def NewUser.row (new : NewUser) (now : Nat) : UserRow where
  id := new.id
  email := new.email
  hashedPassword := new.hashedPassword
  fullName := new.fullName
  isActive := true
  roleId := new.roleId
  version := 1
  createdAt := now

/-- `inserted` holds the rows of the open transaction, and `aborted` says that one of its
statements has failed. `uuids` and `salts` are what `uuid4` and the password hash draw. -/
structure Registry where
  users : List UserRow
  roles : List Role
  inserted : List UserRow
  aborted : Bool
  clock : Nat
  uuids : Nat → UUID
  drawn : Nat
  salts : Nat → Nat
  salted : Nat

/-- What the auth service raises. `_get_role` alone raises a `RuntimeError`. -/
inductive AuthExn
  | exn (e : Exn)
  | runtimeError (message : String)
  deriving DecidableEq, Repr

inductive AuthCmd
  | gensalt
  | uuid4
  /-- `SELECT ... FROM users WHERE email = e`; at most one row has it. -/
  | selectByEmail (email : String)
  | selectUser (id : UUID)
  /-- `SELECT ... FROM roles WHERE name = n`. -/
  | selectRole (name : String)
  /-- What `selectinload(User.role)` sends. -/
  | selectRoleById (id : Nat)
  | insertUser (new : NewUser)
  | commit
  | rollback

abbrev AuthCmd.Resp : AuthCmd → Type
  | gensalt => Nat
  | uuid4 => UUID
  | selectByEmail _ => Option UserRow
  | selectUser _ => Option UserRow
  | selectRole _ => Option Role
  | selectRoleById _ => Option Role
  | insertUser _ => UserRow
  | _ => Unit

abbrev AuthApp (α : Type) := Prog AuthCmd.Resp AuthExn α

abbrev authQuery (c : AuthCmd) : AuthApp c.Resp := Prog.perform c

namespace Registry

def start (roles : List Role) (uuids : Nat → UUID) (salts : Nat → Nat) : Registry where
  users := []
  roles := roles
  inserted := []
  aborted := false
  clock := 0
  uuids := uuids
  drawn := 0
  salts := salts
  salted := 0

def visible (s : Registry) : List UserRow := s.users ++ s.inserted

def rollbackTx (s : Registry) : Registry := { s with inserted := [], aborted := false }

/-- `COMMIT`. Of an aborted transaction it is a rollback. -/
def commitTx (s : Registry) : Registry :=
  { s with
    users := if s.aborted then s.users else s.visible
    inserted := []
    aborted := false }

def abort (s : Registry) : Registry := { s with inserted := [], aborted := true }

/-- The server takes the texts of the row, and `uq_users_email`, the primary key and the
foreign key on `roles` admit it. -/
def admits (s : Registry) (row : UserRow) : Bool :=
  isText row.email && isText row.hashedPassword && row.fullName.all isText &&
    (s.visible.all fun other => other.email ≠ row.email ∧ other.id ≠ row.id) &&
    s.roles.any fun role => role.id = row.roleId

end Registry

def authStep (s : Registry) : (c : AuthCmd) → Option (Except AuthExn c.Resp × Registry)
  | .gensalt => some (.ok (s.salts s.salted), { s with salted := s.salted + 1 })
  | .uuid4 => some (.ok (s.uuids s.drawn), { s with drawn := s.drawn + 1 })
  | .selectByEmail email =>
    if s.aborted then some (.error (.exn .dbApiError), s)
    else if isText email then some (.ok (s.visible.find? fun row => row.email = email), s)
    else some (.error (.exn .dbApiError), s.abort)
  | .selectUser id =>
    if s.aborted then some (.error (.exn .dbApiError), s)
    else some (.ok (s.visible.find? fun row => row.id = id), s)
  | .selectRole name =>
    if s.aborted then some (.error (.exn .dbApiError), s)
    else if isText name then some (.ok (s.roles.find? fun role => role.name = name), s)
    else some (.error (.exn .dbApiError), s.abort)
  | .selectRoleById id =>
    if s.aborted then some (.error (.exn .dbApiError), s)
    else some (.ok (s.roles.find? fun role => role.id = id), s)
  | .insertUser new =>
    if s.aborted then some (.error (.exn .dbApiError), s)
    else if s.admits (new.row s.clock) then
      some (.ok (new.row s.clock), { s with inserted := s.inserted ++ [new.row s.clock] })
    else some (.error (.exn .dbApiError), s.abort)
  | .commit => some (.ok (), s.commitTx)
  | .rollback => some (.ok (), s.rollbackTx)

end EventAnalytics.Db
