import EventAnalytics.Calendar
import EventAnalytics.Library.Distinct
import Mathlib.Logic.Function.Basic

/-! What the metrics service reads and writes: the events table, the snapshot
tables under READ COMMITTED, advisory locks, and the cache. -/
namespace EventAnalytics.Db

open Library

/-- A row of `metrics_daily` with the name `dau`, and the JSON that is cached for
it. -/
structure DauRow where
  value : Nat
  computedAt : Nat
  deriving DecidableEq, Repr

/-- A row of `funnel_snapshots`, and the JSON that is cached for it. -/
structure FunnelRow where
  viewCount : Nat
  searchCount : Nat
  cartCount : Nat
  orderCount : Nat
  computedAt : Nat
  deriving DecidableEq, Repr

/-- What a snapshot is about. It identifies the row and the cache key. -/
inductive Period
  /-- `metrics:dau:{d}`. -/
  | dau (d : Day)
  /-- `metrics:funnel:{a}:{b}`. -/
  | funnel (a b : Day)
  deriving DecidableEq, Repr

abbrev Period.Row : Period → Type
  | dau _ => DauRow
  | funnel .. => FunnelRow

structure Cached (p : Period) where
  row : p.Row
  expiresAt : Nat

/-- `written` holds the upserts of open transactions, `locks` the advisory locks
that they hold, each with its session. -/
@[ext]
structure Warehouse where
  clock : Nat
  events : List EventRow
  rows : (p : Period) → Option p.Row
  cache : (p : Period) → Option (Cached p)
  written : List (Nat × (p : Period) × p.Row)
  locks : List (Nat × Int)
  aborted : Nat → Bool

inductive MetricsCmd
  | now
  | cacheGet (p : Period)
  | cacheSet (p : Period) (row : p.Row) (ttl : Nat)
  /-- `SELECT pg_advisory_xact_lock(:k)`. -/
  | advisoryLock (key : Int)
  /-- `SELECT count(DISTINCT user_id) FROM events` between two times, of one event
  type or of all. -/
  | countUsers (start stop : Int) (eventType : Option String)
  | select (p : Period)
  /-- `INSERT ... ON CONFLICT DO UPDATE`. -/
  | upsert (p : Period) (insert update : p.Row)
  | commit
  | rollback

abbrev MetricsCmd.Resp : MetricsCmd → Type
  | now => Nat
  | cacheGet p => Option p.Row
  | countUsers .. => Nat
  | select p => Option p.Row
  | _ => Unit

abbrev MetricsApp (α : Type) := Prog MetricsCmd.Resp Exn α

abbrev ask (c : MetricsCmd) : MetricsApp c.Resp := Prog.perform c

def userIn (start stop : Int) (eventType : Option String) (row : EventRow) : Option UUID :=
  let typed : Bool :=
    match eventType, row.eventType with
    | none, _ => true
    | some wanted, .str s => s = wanted
    | some _, _ => false
  if start ≤ row.serverTs ∧ row.serverTs < stop ∧ typed then row.userId else none

namespace Warehouse

def cached? (w : Warehouse) (p : Period) : Option p.Row :=
  match w.cache p with
  | some c => if w.clock < c.expiresAt then some c.row else none
  | none => none

theorem cached?_of_lt {w : Warehouse} {p : Period} {c : Cached p} (hc : w.cache p = some c)
    (h : w.clock < c.expiresAt) : w.cached? p = some c.row := by
  simp only [cached?, hc, h, if_true]

theorem cached?_of_le {w : Warehouse} {p : Period} {c : Cached p} (hc : w.cache p = some c)
    (h : c.expiresAt ≤ w.clock) : w.cached? p = none := by
  simp only [cached?, hc, Nat.not_lt.mpr h, if_false]

def own? (w : Warehouse) (i : Nat) (p : Period) : Option p.Row :=
  w.written.findSome? fun jr =>
    if jr.1 = i then if h : jr.2.1 = p then some (h ▸ jr.2.2) else none else none

def dropWrites (w : Warehouse) (i : Nat) : List (Nat × (p : Period) × p.Row) :=
  w.written.filter fun jr => jr.1 ≠ i

def dropLocks (w : Warehouse) (i : Nat) : List (Nat × Int) :=
  w.locks.filter fun jk => jk.1 ≠ i

def rollbackTx (w : Warehouse) (i : Nat) : Warehouse :=
  { w with written := w.dropWrites i, locks := w.dropLocks i, aborted := setAt w.aborted i false }

def abortTx (w : Warehouse) (i : Nat) : Warehouse :=
  { w with written := w.dropWrites i, aborted := setAt w.aborted i true }

/-- `COMMIT`. Of an aborted transaction it is a rollback and raises nothing, and it
has nothing left to write. -/
def commitTx (w : Warehouse) (i : Nat) : Warehouse :=
  { w.rollbackTx i with
    rows := fun p =>
      match w.own? i p with
      | some row => some row
      | none => w.rows p }

/-- The upsert of session `i`: over a row that it sees, the update's values. -/
def upsert (w : Warehouse) (i : Nat) (p : Period) (insert update : p.Row) : Warehouse :=
  let row := if ((w.own? i p).or (w.rows p)).isSome then update else insert
  { w with written := (i, ⟨p, row⟩) :: w.written }

end Warehouse

/-- What a command does when nothing goes wrong. `none` is a wait: for a lock, or
for a row that another open transaction has written. -/
def metricsEffect (i : Nat) (w : Warehouse) :
    (c : MetricsCmd) → Option (Except Exn c.Resp × Warehouse)
  | .now => some (.ok w.clock, w)
  | .cacheGet p => some (.ok (w.cached? p), w)
  | .cacheSet p row ttl =>
    if ttl = 0 then some (.error .responseError, w)
    else
      some (.ok (),
        { w with cache := Function.update w.cache p (some ⟨row, w.clock + ttl * 1000⟩) })
  | .advisoryLock key =>
    if w.aborted i then some (.error .dbApiError, w)
    else if w.locks.any fun jk => jk.1 ≠ i ∧ jk.2 = key then none
    else some (.ok (), { w with locks := w.locks ++ [(i, key)] })
  | .countUsers start stop eventType =>
    if w.aborted i then some (.error .dbApiError, w)
    else some (.ok (distinct (userIn start stop eventType) w.events), w)
  | .select p =>
    if w.aborted i then some (.error .dbApiError, w)
    else some (.ok ((w.own? i p).or (w.rows p)), w)
  | .upsert p insert update =>
    if w.aborted i then some (.error .dbApiError, w)
    else if w.written.any fun jr => jr.1 ≠ i ∧ jr.2.1 = p then none
    else some (.ok (), w.upsert i p insert update)
  | .commit => some (.ok (), w.commitTx i)
  | .rollback => some (.ok (), w.rollbackTx i)

/-- Commands that talk to the database within a transaction. -/
def MetricsCmd.statement : MetricsCmd → Bool
  | .advisoryLock _ | .countUsers .. | .select _ | .upsert .. => true
  | _ => false

inductive MetricsEnv
  /-- Time passes. -/
  | tick (ms : Nat)
  /-- An event is stored, stamped with the clock. -/
  | store (row : EventRow)

/-- The metrics service over its stores. For a statement `raiseAfter` is the
server's rejection; a rollback that is lost is made when the connection ends. -/
def warehouse : Machine MetricsCmd.Resp Exn Warehouse Choice MetricsEnv where
  exec i ch w c :=
    match ch, c with
    | .ok, c => metricsEffect i w c
    | _, .rollback => metricsEffect i w .rollback
    | .raiseBefore, .cacheGet _ | .raiseBefore, .cacheSet .. => some (.error .connectionError, w)
    | .raiseBefore, _ => some (.error .dbApiError, w)
    | .raiseAfter, c =>
      if c.statement then some (.error .dbApiError, w.abortTx i)
      else some (.error (if c matches .commit then .dbApiError else .connectionError),
        ((metricsEffect i w c).map Prod.snd).getD w)
  crash i w := w.rollbackTx i
  env
    | .tick ms, w => some { w with clock := w.clock + ms }
    | .store row, w => some { w with events := w.events ++ [{ row with serverTs := w.clock }] }

namespace Warehouse

variable {w : Warehouse} {i j : Nat} {p q : Period}

theorem own?_congr {w' : Warehouse} (hwritten : w'.written = w.written) (i : Nat) (p : Period) :
    w'.own? i p = w.own? i p := by
  simp only [own?, hwritten]

theorem own?_upsert_self (insert update : p.Row) :
    (w.upsert i p insert update).own? i p =
      some (if ((w.own? i p).or (w.rows p)).isSome then update else insert) := by
  simp [upsert, own?]

theorem own?_upsert_ne (h : j ≠ i ∨ q ≠ p) (insert update : p.Row) :
    (w.upsert i p insert update).own? j q = w.own? j q := by
  rcases h with h | h
  · simp [upsert, own?, Ne.symm h]
  · simp [upsert, own?, Ne.symm h]

theorem own?_isSome : (w.own? i p).isSome = true ↔ ∃ row, (i, ⟨p, row⟩) ∈ w.written := by
  simp only [own?, List.isSome_findSome?, List.any_eq_true]
  constructor
  · rintro ⟨⟨k, q, row⟩, hmem, h⟩
    by_cases hk : k = i
    · by_cases hq : q = p
      · subst hk hq
        exact ⟨row, hmem⟩
      · simp [hk, hq] at h
    · simp [hk] at h
  · rintro ⟨row, hmem⟩
    exact ⟨_, hmem, by simp⟩

theorem mem_of_own? {row : p.Row} (h : w.own? i p = some row) : (i, ⟨p, row⟩) ∈ w.written := by
  obtain ⟨⟨k, q, row'⟩, hmem, h⟩ := List.exists_of_findSome?_eq_some h
  by_cases hk : k = i
  · by_cases hq : q = p
    · subst hk hq
      simp only [if_true, dite_true, Option.some.injEq] at h
      exact h ▸ hmem
    · simp [hk, hq] at h
  · simp [hk] at h

theorem own?_dropped_self {w' : Warehouse} (h : w'.written = w.dropWrites i) :
    w'.own? i p = none := by
  rw [← Option.not_isSome_iff_eq_none, Option.isSome_iff_ne_none, not_not]
  rw [← Option.not_isSome_iff_eq_none]
  intro hsome
  obtain ⟨row, hmem⟩ := own?_isSome.mp hsome
  rw [h] at hmem
  simp [dropWrites] at hmem

theorem own?_dropped_ne {w' : Warehouse} (h : w'.written = w.dropWrites i) (hj : j ≠ i) :
    w'.own? j p = w.own? j p := by
  unfold own?
  rw [h, dropWrites]
  induction w.written with
  | nil => rfl
  | cons jr written ih =>
      rw [List.filter_cons, List.findSome?_cons]
      split
      · rw [List.findSome?_cons, ih]
      · rename_i hi
        have hi : jr.1 = i := by simpa using hi
        rw [ih, if_neg (by rw [hi]; exact Ne.symm hj)]

end Warehouse

end EventAnalytics.Db
