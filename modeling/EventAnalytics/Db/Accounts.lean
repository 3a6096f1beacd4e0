import EventAnalytics.Library.Interleaving
import EventAnalytics.Python

/-! The `users` and `roles` tables under READ COMMITTED, and the statements that
the user service issues. -/
namespace EventAnalytics.Db

open Library

structure Role where
  id : Nat
  name : String
  deriving DecidableEq, Repr

structure UserRow where
  id : UUID
  email : String
  hashedPassword : String
  fullName : Option String
  isActive : Bool
  roleId : Nat
  version : Nat
  createdAt : Nat
  deriving DecidableEq, Repr

/-- The `values` of an `UPDATE`; a column without a value keeps what it has. -/
structure UserValues where
  version : Nat
  fullName : Option String := none
  isActive : Option Bool := none
  roleId : Option Nat := none
  deriving DecidableEq, Repr

def UserValues.apply (values : UserValues) (row : UserRow) : UserRow :=
  { row with
    version := values.version
    fullName := values.fullName <|> row.fullName
    isActive := values.isActive.getD row.isActive
    roleId := values.roleId.getD row.roleId }

/-- A `User` in a session, with the `Role` that `selectinload` has put on it. -/
structure LoadedUser where
  row : UserRow
  role : Role
  deriving DecidableEq, Repr

structure Update where
  session : Nat
  old : UserRow
  new : UserRow
  deriving DecidableEq, Repr

/-- The database. `written` holds the row versions of open transactions, each
locked by its session, and `log` the committed updates, oldest first. -/
structure Accounts where
  users : List UserRow
  roles : List Role
  written : List (Nat × UserRow)
  aborted : Nat → Bool
  log : List Update

inductive UserCmd
  /-- `SELECT ... FROM users WHERE id = u`, with the role by `selectinload`. -/
  | selectUser (u : UUID)
  /-- `SELECT ... FROM roles WHERE name = n`. -/
  | selectRole (name : String)
  /-- `UPDATE users SET ... WHERE id = u AND version = v RETURNING id`. -/
  | updateUser (u : UUID) (version : Nat) (values : UserValues)
  | commit
  | rollback

abbrev UserCmd.Resp : UserCmd → Type
  | selectUser _ => Option LoadedUser
  | selectRole _ => Option Role
  | updateUser .. => Bool
  | _ => Unit

abbrev UserApp (α : Type) := Prog UserCmd.Resp Exn α

abbrev execute (c : UserCmd) : UserApp c.Resp := Prog.perform c

inductive Fate
  | ok
  | lost
  | rejected
  deriving DecidableEq, Repr

namespace Accounts

def row? (w : Accounts) (u : UUID) : Option UserRow :=
  w.users.find? fun row => row.id = u

def own? (w : Accounts) (i : Nat) : Option UserRow :=
  (w.written.find? fun jr => jr.1 = i).map Prod.snd

/-- What session `i` sees: its own version of a row, else the committed one. -/
def visible? (w : Accounts) (i : Nat) (u : UUID) : Option UserRow :=
  match w.own? i with
  | some row => if row.id = u then some row else w.row? u
  | none => w.row? u

def load (w : Accounts) (row : UserRow) : Option LoadedUser :=
  (w.roles.find? fun role => role.id = row.roleId).map fun role => ⟨row, role⟩

def locked (w : Accounts) (i : Nat) (u : UUID) : Bool :=
  w.written.any fun jr => jr.1 ≠ i ∧ jr.2.id = u

def dropWrites (w : Accounts) (i : Nat) : List (Nat × UserRow) :=
  w.written.filter fun jr => jr.1 ≠ i

def rollbackTx (w : Accounts) (i : Nat) : Accounts :=
  { w with written := w.dropWrites i, aborted := setAt w.aborted i false }

def abortTx (w : Accounts) (i : Nat) : Accounts :=
  { w with written := w.dropWrites i, aborted := setAt w.aborted i true }

def replace (users : List UserRow) (new : UserRow) : List UserRow :=
  users.map fun row => if row.id = new.id then new else row

/-- `COMMIT`. A session of this service writes at most one row. -/
def commitTx (w : Accounts) (i : Nat) : Accounts :=
  match w.own? i with
  | some new =>
    match w.row? new.id with
    | some old =>
      { w with
        users := replace w.users new
        written := w.dropWrites i
        aborted := setAt w.aborted i false
        log := w.log ++ [⟨i, old, new⟩] }
    | none => w.rollbackTx i
  | none => w.rollbackTx i

end Accounts

/-- What a statement does. `none` is a wait for a lock. -/
def userEffect (i : Nat) (w : Accounts) :
    (c : UserCmd) → Option (Except Exn c.Resp × Accounts)
  | .selectUser u =>
    if w.aborted i then some (.error .dbApiError, w)
    else some (.ok ((w.visible? i u).bind w.load), w)
  | .selectRole name =>
    if w.aborted i then some (.error .dbApiError, w)
    else some (.ok (w.roles.find? fun role => role.name = name), w)
  | .updateUser u version values =>
    if w.aborted i then some (.error .dbApiError, w)
    else if w.locked i u then none
    else
      match w.visible? i u with
      | some row =>
        if row.version = version then
          some (.ok true, { w with written := w.dropWrites i ++ [(i, values.apply row)] })
        else some (.ok false, w)
      | none => some (.ok false, w)
  | .commit => some (.ok (), w.commitTx i)
  | .rollback => some (.ok (), w.rollbackTx i)

section Tables

open Accounts

variable {w w' : Accounts} {i j : Nat} {u : UUID}

theorem find?_replace {users : List UserRow} {row new : UserRow} (hid : new.id = u)
    (hrow : users.find? (fun row => row.id = u) = some row) :
    (replace users new).find? (fun row => row.id = u) = some new := by
  induction users with
  | nil => simp at hrow
  | cons head users ih =>
      by_cases hhead : head.id = u
      · simp [replace, hhead, hid]
      · simp only [List.find?_cons, hhead, decide_false] at hrow
        simp only [replace, List.map_cons, hid, hhead, if_false, List.find?_cons, decide_false]
        simpa [replace, hid] using ih hrow

theorem own?_dropWrites (hj : j ≠ i) (w : Accounts) :
    ((w.dropWrites i).find? fun jr => jr.1 = j) = w.written.find? fun jr => jr.1 = j := by
  unfold dropWrites
  rw [List.find?_filter]
  congr 1
  funext jr
  by_cases h : jr.1 = j <;> simp [h, hj]

theorem own?_dropWrites_self (w : Accounts) :
    ((w.dropWrites i).find? fun jr => jr.1 = i) = none := by
  simp [dropWrites]

theorem own?_write (w : Accounts) (row : UserRow) :
    own? { w with written := w.dropWrites i ++ [(i, row)] } i = some row := by
  simp [own?, List.find?_append, own?_dropWrites_self]

theorem mem_of_own? {row : UserRow} (h : w.own? i = some row) : (i, row) ∈ w.written := by
  obtain ⟨jr, hjr, rfl⟩ := Option.map_eq_some_iff.mp h
  have hi : jr.1 = i := by simpa using List.find?_some hjr
  exact hi ▸ List.mem_of_find?_eq_some hjr

def reads : UserCmd → Bool
  | .selectUser _ | .selectRole _ => true
  | _ => false

theorem userEffect_reads {c : UserCmd} {r : Except Exn c.Resp} (hreads : reads c = true)
    (h : userEffect i w c = some (r, w')) : w' = w := by
  cases c <;> simp only [reads, Bool.false_eq_true] at hreads <;> simp only [userEffect] at h <;>
    split at h <;> cases h <;> rfl

theorem userEffect_update {version : Nat} {values : UserValues} {r : Except Exn Bool}
    (h : userEffect i w (.updateUser u version values) = some (r, w')) :
    (∃ row, r = .ok true ∧ w.locked i u = false ∧ w.visible? i u = some row ∧
      row.version = version ∧
      w' = { w with written := w.dropWrites i ++ [(i, values.apply row)] }) ∨
    (r ≠ .ok true ∧ w' = w) := by
  simp only [userEffect] at h
  split at h
  · cases h
    exact .inr ⟨by simp, rfl⟩
  · split at h
    · cases h
    · rename_i hlocked
      split at h
      · rename_i row hrow
        split at h
        · rename_i hversion
          cases h
          exact .inl ⟨row, rfl, by simpa using hlocked, hrow, hversion, rfl⟩
        · cases h
          exact .inr ⟨by simp, rfl⟩
      · cases h
        exact .inr ⟨by simp, rfl⟩

end Tables

end EventAnalytics.Db
