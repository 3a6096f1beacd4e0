import EventAnalytics.Db.Warehouse
import EventAnalytics.Library.Decimal

/-! The stores of the whole metrics service: the warehouse with the columns of its
tables, retention snapshots and what else the summary reads. -/
namespace EventAnalytics.Db

open Library

structure RetentionRow where
  cohortSize : Nat
  d1Retained : Nat
  d7Retained : Nat
  d1Rate : Decimal
  d7Rate : Decimal
  computedAt : Nat
  deriving DecidableEq, Repr

/-- The JSON that is cached under `metrics:retention:{d}`. -/
structure RetentionData where
  cohortSize : Nat
  d1Retained : Nat
  d7Retained : Nat
  d1Rate : Decimal.Numeral
  d7Rate : Decimal.Numeral
  computedAt : Nat
  deriving DecidableEq

/-- The columns of `retention_snapshots`. -/
structure RetentionColumns where
  cohortSize : Int4
  d1Retained : Int4
  d7Retained : Int4
  d1Rate : Numeric 8 4
  d7Rate : Numeric 8 4
  computedAt : Nat
  deriving DecidableEq

/-- What the columns store of a snapshot; `none` is a value out of range. -/
def RetentionRow.store (row : RetentionRow) : Option RetentionColumns := do
  let cohortSize ← Int4.store row.cohortSize
  let d1Retained ← Int4.store row.d1Retained
  let d7Retained ← Int4.store row.d7Retained
  let d1Rate ← Numeric.store 8 4 row.d1Rate
  let d7Rate ← Numeric.store 8 4 row.d7Rate
  pure ⟨cohortSize, d1Retained, d7Retained, d1Rate, d7Rate, row.computedAt⟩

def RetentionColumns.load (columns : RetentionColumns) : RetentionRow where
  cohortSize := columns.cohortSize.value
  d1Retained := columns.d1Retained.value
  d7Retained := columns.d7Retained.value
  d1Rate := columns.d1Rate.decimal
  d7Rate := columns.d7Rate.decimal
  computedAt := columns.computedAt

/-- What a row of `metrics_daily` or `funnel_snapshots` reads as once its columns,
`NUMERIC(20, 4)` and `INTEGER`, have stored it; `none` is a value out of range. -/
def Period.stored : (p : Period) → p.Row → Option p.Row
  | .dau _, row => do
    let value ← Numeric.store 20 4 ⟨row.value, 0⟩
    pure { row with value := value.decimal.floor }
  | .funnel .., row => do
    let view ← Int4.store row.viewCount
    let search ← Int4.store row.searchCount
    let cart ← Int4.store row.cartCount
    let order ← Int4.store row.orderCount
    pure ⟨view.value, search.value, cart.value, order.value, row.computedAt⟩

/-- `visitors` is what `PFCOUNT hll:dau:{d}` answers. -/
structure Reports where
  warehouse : Warehouse
  retention : Day → Option RetentionColumns
  retentionCache : Day → Option (RetentionData × Nat)
  retentionWritten : List (Nat × Day × RetentionColumns)
  epmCache : Option (Nat × Nat)
  visitors : Day → Nat

inductive ReportCmd
  | metric (c : MetricsCmd)
  | retentionGet (cohortDate : Day)
  | retentionSet (cohortDate : Day) (data : RetentionData) (ttl : Nat)
  /-- `SELECT uid`, of the users whose first event lies between two times. -/
  | cohort (start stop : Int)
  /-- `SELECT count(DISTINCT user_id)`, of these users and between two times. -/
  | countAmong (users : List UUID) (start stop : Int)
  | selectRetention (cohortDate : Day)
  /-- `INSERT ... ON CONFLICT DO UPDATE`, with the same values. -/
  | upsertRetention (cohortDate : Day) (row : RetentionRow)
  | pfCount (d : Day)
  | epmGet
  | epmSet (epm ttl : Nat)
  /-- `SELECT count(*) FROM events WHERE server_ts >= :since`. -/
  | countSince (since : Int)
  | countEvents

abbrev ReportCmd.Resp : ReportCmd → Type
  | metric c => c.Resp
  | retentionGet _ => Option RetentionData
  | cohort .. => List UUID
  | selectRetention _ => Option RetentionRow
  | epmGet => Option Nat
  | countAmong .. | pfCount _ | countSince _ | countEvents => Nat
  | retentionSet .. | upsertRetention .. | epmSet .. => Unit

abbrev ReportApp (α : Type) := Prog ReportCmd.Resp Exn α

abbrev query (c : ReportCmd) : ReportApp c.Resp := Prog.perform c

/-- `min(server_ts)` of a user. -/
def firstTs (events : List EventRow) (u : UUID) : Option Nat :=
  ((events.filter fun row => row.userId = some u).map EventRow.serverTs).min?

def cohortOf (events : List EventRow) (start stop : Int) : List UUID :=
  (events.filterMap EventRow.userId).dedup.filter fun u =>
    (firstTs events u).any fun ts => start ≤ ts ∧ ts < stop

def userAmong (users : List UUID) (start stop : Int) (row : EventRow) : Option UUID :=
  (userIn start stop none row).filter (· ∈ users)

/-- Commands that talk to the database within a transaction. -/
def ReportCmd.statement : ReportCmd → Bool
  | .metric c => c.statement
  | .cohort .. | .countAmong .. | .selectRetention _ | .upsertRetention .. | .countSince _
  | .countEvents => true
  | _ => false

namespace Reports

def ownRetention? (w : Reports) (i : Nat) (d : Day) : Option RetentionColumns :=
  w.retentionWritten.findSome? fun jr => if jr.1 = i ∧ jr.2.1 = d then some jr.2.2 else none

def dropRetention (w : Reports) (i : Nat) : Reports :=
  { w with retentionWritten := w.retentionWritten.filter fun jr => jr.1 ≠ i }

def commitRetention (w : Reports) (i : Nat) : Reports :=
  { w.dropRetention i with
    retention := fun d => (w.ownRetention? i d).or (w.retention d) }

def rollbackTx (w : Reports) (i : Nat) : Reports :=
  { w.dropRetention i with warehouse := w.warehouse.rollbackTx i }

def abortTx (w : Reports) (i : Nat) : Reports :=
  { w.dropRetention i with warehouse := w.warehouse.abortTx i }

/-- What becomes of the retention snapshots of a session when it issues a command to
the warehouse. -/
def settle (w : Reports) (i : Nat) (ch : Choice) (c : MetricsCmd) : Reports :=
  match ch, c with
  | .raiseBefore, .commit => w
  | _, .commit => w.commitRetention i
  | _, .rollback => w.dropRetention i
  | .raiseAfter, c => if c.statement then w.dropRetention i else w
  | _, _ => w

def warehouseExec (w : Reports) (i : Nat) (ch : Choice) (c : MetricsCmd) :
    Option (Except Exn c.Resp × Reports) :=
  (Db.warehouse.exec i ch w.warehouse c).map fun rw =>
    (rw.1, { w.settle i ch c with warehouse := rw.2 })

/-- The columns store what the upsert writes, or the database rejects it. -/
def metricExec (w : Reports) (i : Nat) (ch : Choice) :
    (c : MetricsCmd) → Option (Except Exn c.Resp × Reports)
  | .upsert p insert update =>
    match p.stored insert, p.stored update with
    | some insert, some update => w.warehouseExec i ch (.upsert p insert update)
    | _, _ => some (.error .dbApiError, if ch matches .raiseBefore then w else w.abortTx i)
  | c => w.warehouseExec i ch c

end Reports

/-- What a command beside the warehouse does when nothing goes wrong. `none` is a
wait for a row that another open transaction has written. -/
def reportsEffect (i : Nat) (w : Reports) :
    (c : ReportCmd) → Option (Except Exn c.Resp × Reports)
  | .metric c => w.metricExec i .ok c
  | .retentionGet d =>
    some (.ok ((w.retentionCache d).bind fun c =>
      if w.warehouse.clock < c.2 then some c.1 else none), w)
  | .retentionSet d data ttl =>
    if ttl = 0 then some (.error .responseError, w)
    else
      some (.ok (), { w with
        retentionCache :=
          Function.update w.retentionCache d (some (data, w.warehouse.clock + ttl * 1000)) })
  | .cohort start stop =>
    if w.warehouse.aborted i then some (.error .dbApiError, w)
    else some (.ok (cohortOf w.warehouse.events start stop), w)
  | .countAmong users start stop =>
    if w.warehouse.aborted i then some (.error .dbApiError, w)
    else some (.ok (distinct (userAmong users start stop) w.warehouse.events), w)
  | .selectRetention d =>
    if w.warehouse.aborted i then some (.error .dbApiError, w)
    else
      some (.ok (((w.ownRetention? i d).or (w.retention d)).map RetentionColumns.load), w)
  | .upsertRetention d row =>
    if w.warehouse.aborted i then some (.error .dbApiError, w)
    else
      match row.store with
      | none => some (.error .dbApiError, w.abortTx i)
      | some columns =>
        if w.retentionWritten.any fun jr => jr.1 ≠ i ∧ jr.2.1 = d then none
        else some (.ok (), { w with retentionWritten := (i, d, columns) :: w.retentionWritten })
  | .pfCount d => some (.ok (w.visitors d), w)
  | .epmGet =>
    some (.ok (w.epmCache.bind fun c => if w.warehouse.clock < c.2 then some c.1 else none), w)
  | .epmSet epm ttl =>
    if ttl = 0 then some (.error .responseError, w)
    else some (.ok (), { w with epmCache := some (epm, w.warehouse.clock + ttl * 1000) })
  | .countSince since =>
    if w.warehouse.aborted i then some (.error .dbApiError, w)
    else some (.ok (w.warehouse.events.countP fun row => since ≤ row.serverTs), w)
  | .countEvents =>
    if w.warehouse.aborted i then some (.error .dbApiError, w)
    else some (.ok w.warehouse.events.length, w)

inductive ReportEnv
  | metric (e : MetricsEnv)
  /-- Ingest adds to the day's `HyperLogLog`. -/
  | visit (d : Day) (n : Nat)

def reports : Machine ReportCmd.Resp Exn Reports Choice ReportEnv where
  exec i ch w
    | .metric c => w.metricExec i ch c
    | c =>
      match ch with
      | .ok => reportsEffect i w c
      | .raiseBefore =>
        some (.error (if c.statement then .dbApiError else .connectionError), w)
      | .raiseAfter =>
        if c.statement then some (.error .dbApiError, w.abortTx i)
        else some (.error .connectionError, ((reportsEffect i w c).map Prod.snd).getD w)
  crash i w := w.rollbackTx i
  env
    | .metric e, w => (warehouse.env e w.warehouse).map fun v => { w with warehouse := v }
    | .visit d n, w => some { w with visitors := Function.update w.visitors d n }

end EventAnalytics.Db
