import EventAnalytics.Library.Interleaving
import EventAnalytics.Core.SlidingWindow
import EventAnalytics.Redis.Stream
import EventAnalytics.Schemas

/-! The stores behind the API and the worker: one Redis server and one
PostgreSQL database, and the atomic commands that the code issues to them. -/
namespace EventAnalytics

open Library Redis

inductive IdemStatus
  | pending
  | done
  deriving DecidableEq, Repr

/-- The value of a key `idem:{event_id}` and the time at which it expires. -/
structure IdemKey where
  status : IdemStatus
  expiresAt : Nat
  deriving DecidableEq, Repr

/-- A rate-limit member: `{now_ms}-` and eight hexadecimal digits. -/
abbrev Member := Nat ×ₗ Nat

/-- Both stores at one instant. `uuids` is what `uuid4` yields, draw by draw, and
`drawn` the number of draws so far. `uncommitted` holds the rows inserted by open
transactions, with the thread whose session they belong to, and `aborted` the
sessions whose transaction a failed statement has put into the aborted state. -/
structure World where
  clock : Nat
  uuids : Nat → UUID
  drawn : Nat
  idem : UUID → Option IdemKey
  stream : Stream
  dlq : List DeadLetter
  hll : Nat → List UUID
  hllExpiry : Nat → Option Nat
  limiter : String → ZSet Member
  events : List EventRow
  uncommitted : List (Nat × EventRow)
  aborted : Nat → Bool

/-- Empty stores at time `clock`. The first `2 ^ 32` draws differ in their leading digits. -/
def World.init (clock : Nat) : World where
  clock := clock
  uuids := fun n => BitVec.ofNat 128 (n * 2 ^ 96)
  drawn := 0
  idem := fun _ => none
  stream := Stream.empty
  dlq := []
  hll := fun _ => []
  hllExpiry := fun _ => none
  limiter := fun _ => ZSet.empty
  events := []
  uncommitted := []
  aborted := fun _ => false

/-- What an `INSERT` is issued for. The stores ignore it; it lets a condition on
a step name the message that the worker is handling. -/
inductive Origin
  | request
  | delivery (messageId deliveryCount : Nat)
  deriving DecidableEq, Repr

/-- Which function sends an `XACK`. Redis ignores it. -/
inductive Acker
  | ackMessages
  | deadLetter
  deriving DecidableEq, Repr

inductive Cmd
  /-- `time.time()`, `datetime.now(UTC)`. -/
  | now
  /-- `uuid.uuid4()`. -/
  | uuid4
  /-- `SET idem:{e} pending NX EX ttl`. -/
  | setNx (e : UUID) (ttl : Nat)
  /-- `SET idem:{e} done XX EX ttl`. -/
  | setXx (e : UUID) (ttl : Nat)
  /-- `SET idem:{e} done EX ttl`. -/
  | setDone (e : UUID) (ttl : Nat)
  | xadd (data : String)
  | xreadgroup (consumer : String) (count : Nat)
  | xautoclaim (consumer : String) (minIdle count : Nat)
  | xpendingRange (count : Nat)
  | xack (ids : List Nat) (acker : Acker)
  | xdel (id : Nat)
  | xaddDlq (body : DeadLetter)
  | xlen
  | xlenDlq
  | xinfoGroups
  | pfadd (day : Nat) (user : UUID)
  | expireHll (day seconds : Nat)
  | evalSlidingWindow (key : String) (now window limit : Nat) (member : Member)
  /-- `INSERT ... ON CONFLICT DO NOTHING RETURNING event_id`. -/
  | insertEvent (row : EventRow) (origin : Origin)
  /-- `SELECT id FROM events WHERE event_id = e LIMIT 1`. -/
  | selectEvent (e : UUID)
  | commit
  | rollback

/-- Responses. `setNx` answers whether the key was set, `insertEvent` whether a
row came back, `selectEvent` whether one was found, `xinfoGroups` the number of
pending entries. -/
abbrev Cmd.Resp : Cmd → Type
  | now => Nat
  | uuid4 => UUID
  | setNx .. => Bool
  | xadd .. => Nat
  | xreadgroup .. => List (Nat × Entry)
  | xautoclaim .. => List (Nat × Entry)
  | xpendingRange .. => List (Nat × Nat)
  | xlen => Nat
  | xlenDlq => Nat
  | xinfoGroups => Nat
  | evalSlidingWindow .. => Core.Reply
  | insertEvent .. => Bool
  | selectEvent .. => Bool
  | _ => Unit

abbrev App (α : Type) := Prog Cmd.Resp Exn α

abbrev await (c : Cmd) : App c.Resp := Prog.perform c

/-- How a command goes: as it should, or with an exception raised before or after
it had its effect. For an SQL statement `raiseAfter` is the server's rejection,
which aborts the transaction. -/
inductive Choice
  | ok
  | raiseBefore
  | raiseAfter
  deriving DecidableEq, Repr

namespace World

def hasKey (w : World) (e : UUID) : Bool :=
  match w.idem e with
  | some key => w.clock < key.expiresAt
  | none => false

def setKey (w : World) (e : UUID) (status : IdemStatus) (ttl : Nat) : World :=
  { w with idem := fun e' => if e' = e then some ⟨status, w.clock + ttl * 1000⟩ else w.idem e' }

def stored (w : World) (e : UUID) : Bool :=
  w.events.any fun row => row.eventId = e

def ownRows (w : World) (i : Nat) : List EventRow :=
  (w.uncommitted.filter fun jr => jr.1 = i).map Prod.snd

def ownsRow (w : World) (i : Nat) (e : UUID) : Bool :=
  w.uncommitted.any fun jr => jr.1 = i ∧ jr.2.eventId = e

/-- Another open transaction has inserted `e`: an insert of `e` waits for it. -/
def heldByOther (w : World) (i : Nat) (e : UUID) : Bool :=
  w.uncommitted.any fun jr => jr.1 ≠ i ∧ jr.2.eventId = e

/-- The transaction of thread `i` ends or fails: its rows are gone. -/
def dropRows (w : World) (i : Nat) : List (Nat × EventRow) :=
  w.uncommitted.filter fun jr => jr.1 ≠ i

def abortTx (w : World) (i : Nat) : World :=
  { w with uncommitted := w.dropRows i, aborted := setAt w.aborted i true }

/-- `ROLLBACK`, or a connection that is closed or lost. -/
def rollbackTx (w : World) (i : Nat) : World :=
  { w with uncommitted := w.dropRows i, aborted := setAt w.aborted i false }

/-- `COMMIT`. Of an aborted transaction it is a rollback and raises nothing. -/
def commitTx (w : World) (i : Nat) : World :=
  { w with
    events := if w.aborted i then w.events else w.events ++ w.ownRows i
    uncommitted := w.dropRows i
    aborted := setAt w.aborted i false }

/-- The key `hll:dau:{day}` has not expired. A key without an expiry does not. -/
def hllLive (w : World) (day : Nat) : Bool :=
  match w.hllExpiry day with
  | some expiresAt => w.clock < expiresAt
  | none => true

/-- The set behind `hll:dau:{day}`. -/
def visitors (w : World) (day : Nat) : List UUID :=
  if w.hllLive day then w.hll day else []

/-- `PFADD`. Of a key that has expired it starts a new one, without an expiry. -/
def addVisitor (w : World) (day : Nat) (user : UUID) : World :=
  { w with
    hll := setAt w.hll day (w.visitors day ++ [user])
    hllExpiry := if w.hllLive day then w.hllExpiry else setAt w.hllExpiry day none }

/-- `EXPIRE`. It does nothing when there is no such key. -/
def expireVisitors (w : World) (day seconds : Nat) : World :=
  { w with
    hllExpiry :=
      if (w.visitors day).isEmpty then w.hllExpiry
      else setAt w.hllExpiry day (some (w.clock + seconds * 1000)) }

end World

/-- `datetime.now(UTC).strftime("%Y%m%d")`: days are numbered from the epoch. -/
def dayOf (ms : Nat) : Nat := ms / 86400000

/-- What a command does when nothing goes wrong. `none` is a wait for a row that
another open transaction has inserted. Redis refuses an expiry of no seconds. -/
def effect (i : Nat) (w : World) : (c : Cmd) → Option (Except Exn c.Resp × World)
  | .now => some (.ok w.clock, w)
  | .uuid4 => some (.ok (w.uuids w.drawn), { w with drawn := w.drawn + 1 })
  | .setNx e ttl =>
    if ttl = 0 then some (.error .responseError, w)
    else if w.hasKey e then some (.ok false, w)
    else some (.ok true, w.setKey e .pending ttl)
  | .setXx e ttl =>
    if ttl = 0 then some (.error .responseError, w)
    else some (.ok (), if w.hasKey e then w.setKey e .done ttl else w)
  | .setDone e ttl =>
    if ttl = 0 then some (.error .responseError, w) else some (.ok (), w.setKey e .done ttl)
  | .xadd data =>
    let r := w.stream.xadd ⟨some data⟩
    some (.ok r.1, { w with stream := r.2 })
  | .xreadgroup consumer count =>
    let r := w.stream.xreadgroup w.clock consumer count
    some (.ok r.1, { w with stream := r.2 })
  | .xautoclaim consumer minIdle count =>
    let r := w.stream.xautoclaim w.clock minIdle consumer count
    some (.ok r.1, { w with stream := r.2 })
  | .xpendingRange count => some (.ok (w.stream.xpendingRange count), w)
  | .xack ids _ => some (.ok (), { w with stream := w.stream.xack ids })
  | .xdel id => some (.ok (), { w with stream := w.stream.xdel id })
  | .xaddDlq body => some (.ok (), { w with dlq := w.dlq ++ [body] })
  | .xlen => some (.ok w.stream.entries.length, w)
  | .xlenDlq => some (.ok w.dlq.length, w)
  | .xinfoGroups => some (.ok w.stream.pel.length, w)
  | .pfadd day user => some (.ok (), w.addVisitor day user)
  | .expireHll day seconds => some (.ok (), w.expireVisitors day seconds)
  | .evalSlidingWindow key now window limit member =>
    let r := Core.slidingWindowLua w.clock (w.limiter key) now window limit member
    some (.ok r.1, { w with limiter := fun key' => if key' = key then r.2 else w.limiter key' })
  | .insertEvent row _ =>
    if w.aborted i then some (.error .dbApiError, w)
    else if w.stored row.eventId || w.ownsRow i row.eventId then some (.ok false, w)
    else if w.heldByOther i row.eventId then none
    else some (.ok true, { w with uncommitted := w.uncommitted ++ [(i, row)] })
  | .selectEvent e =>
    if w.aborted i then some (.error .dbApiError, w)
    else some (.ok (w.stored e || w.ownsRow i e), w)
  | .commit => some (.ok (), w.commitTx i)
  | .rollback => some (.ok (), w.rollbackTx i)

/-- What has happened when a command raises without having reached the server.
Closing a session that cannot reach it drops the connection, which rolls back. -/
def beforeEffect (i : Nat) (w : World) : Cmd → World
  | .rollback => w.rollbackTx i
  | _ => w

/-- What the server has done when a command raises although it was received. -/
def afterEffect (i : Nat) (w : World) : Cmd → World
  | .insertEvent .. => w.abortTx i
  | .selectEvent .. => w.abortTx i
  | c => ((effect i w c).map Prod.snd).getD w

def Cmd.fault : Cmd → Exn
  | .insertEvent .. => .dbApiError
  | .selectEvent .. => .dbApiError
  | .commit => .dbApiError
  | .rollback => .dbApiError
  | _ => .connectionError

inductive EnvAct
  /-- Time passes. -/
  | tick (ms : Nat)
  /-- Another producer adds an entry to the event stream. -/
  | produce (e : Entry)
  deriving DecidableEq, Repr

/-- The API and the worker over their stores. When a thread dies, PostgreSQL
rolls its transaction back. -/
def backend : Machine Cmd.Resp Exn World Choice EnvAct where
  exec i ch w c :=
    match ch with
    | .ok => effect i w c
    | .raiseBefore => some (.error c.fault, beforeEffect i w c)
    | .raiseAfter => some (.error c.fault, afterEffect i w c)
  crash i w := w.rollbackTx i
  env
    | .tick ms, w => some { w with clock := w.clock + ms }
    | .produce e, w => some { w with stream := (w.stream.xadd e).2 }

abbrev BackendPolicy := Policy Cmd World Choice EnvAct

def noFaults : BackendPolicy where
  step _ ch _ _ := ch = .ok
  crash := fun _ _ _ => false
  env := fun _ _ => false

end EventAnalytics
