import EventAnalytics.Db.Session
import EventAnalytics.Mq.Streams

/-! `app/workers/tasks.py`: the stream consumer. -/
namespace EventAnalytics.Workers

open Library

inductive Persisted
  | inserted
  | conflict
  | invalid
  deriving DecidableEq, Repr

/-- `UUID(value)`: a value that is not a text has no `replace`. -/
def uuidOfJson (py : Python) : Json → Except Exn UUID
  | .str s =>
    match py.uuidOf s with
    | some u => .ok u
    | none => .error .valueError
  | _ => .error .attributeError

/-- `UUID(data["user_id"]) if data.get("user_id") else None`. -/
def userIdOf (py : Python) (data : Dict) : Except Exn (Option UUID) :=
  if (data.get "user_id").truthy then some <$> uuidOfJson py (data.get "user_id") else .ok none

/-- `datetime.fromisoformat` with its `ValueError` swallowed; a value that is not
a text raises a `TypeError`. -/
def clientTsOf (py : Python) (data : Dict) : Except Exn (Option Datetime) :=
  if (data.get "client_ts").truthy then
    match data.get "client_ts" with
    | .str s => .ok (py.fromisoformat s)
    | _ => .error .typeError
  else .ok none

/-- What `_persist_event` makes of a payload before it talks to the database. -/
inductive Decoded
  | invalid
  | row (make : Nat → EventRow)

/-- The row is complete but for its `server_ts`. -/
def decodeEvent (py : Python) (data : Dict) : Except Exn Decoded :=
  match uuidOfJson py (data.get "event_id") with
  | .error _ => .ok .invalid
  | .ok eventId => do
    let userId ← userIdOf py data
    let clientTs ← clientTsOf py data
    if !(data.get "session_id").truthy || !(data.get "event_type").truthy then
      pure .invalid
    else
      pure (.row fun serverTs =>
        { eventId := eventId
          userId := userId
          sessionId := data.get "session_id"
          eventType := data.get "event_type"
          properties :=
            if (data.get "properties").truthy then data.get "properties" else .obj []
          clientTs := clientTs
          serverTs := serverTs
          ipHash := data.get "ip_hash"
          userAgent := data.get "user_agent" })

/-- The HyperLogLog update of an inserted row that has a user. -/
def countUser (inserted : Bool) (row : EventRow) : App Unit :=
  match inserted, row.userId with
  | true, some userId => do
    let today ← await .now
    await (.pfadd (dayOf today) userId)
    await (.expireHll (dayOf today) (3 * 86400))
  | _, _ => pure ()

/-- `_persist_event` from the `INSERT` on. -/
def persistRow (settings : Settings) (origin : Origin) (make : Nat → EventRow) :
    App Persisted := do
  let serverTs ← await .now
  let row := make serverTs
  let inserted ← await (.insertEvent row origin)
  countUser inserted row
  await (.setDone row.eventId settings.idemTtlSeconds)
  pure (if inserted then .inserted else .conflict)

def persistEvent (py : Python) (settings : Settings) (origin : Origin) (data : Dict) :
    App Persisted := do
  match ← Prog.ofExcept (decodeEvent py data) with
  | .invalid => pure .invalid
  | .row make => persistRow settings origin make

/-- The counters and the list that the loop of `process_event_stream` carries. -/
structure Progress where
  inserted : Nat := 0
  conflicts : Nat := 0
  dead : Nat := 0
  idsToAck : List Nat := []
  deriving DecidableEq, Repr

/-- `if delivery_count >= settings.event_max_deliveries: await dead_letter(...)`. -/
def deadLetterIfDue (py : Python) (settings : Settings) (messageId : Nat) (data : Dict)
    (deliveryCount : Nat) (reason : String) (acc : Progress) : App Progress :=
  if deliveryCount ≥ settings.eventMaxDeliveries then do
    Mq.deadLetter py messageId (.obj data) reason deliveryCount
    pure { acc with dead := acc.dead + 1 }
  else pure acc

def handleMessage (py : Python) (settings : Settings) (messageId : Nat) (data : Dict)
    (deliveryCount : Nat) (acc : Progress) : App Progress := do
  match ← persistEvent py settings (.delivery messageId deliveryCount) data with
  | .invalid => deadLetterIfDue py settings messageId data deliveryCount "invalid_event" acc
  | .inserted =>
    pure { acc with inserted := acc.inserted + 1, idsToAck := acc.idsToAck ++ [messageId] }
  | .conflict =>
    pure { acc with conflicts := acc.conflicts + 1, idsToAck := acc.idsToAck ++ [messageId] }

/-- One turn of the loop. A payload that is not a dictionary has no `get`, and
that exception is outside the `try`. -/
def processMessage (py : Python) (settings : Settings) (message : Nat × Json × Nat)
    (acc : Progress) : App Progress :=
  match message with
  | (messageId, .obj data, deliveryCount) =>
    if (Dict.get data "_parse_error").truthy || !(Dict.get data "event_id").truthy then
      deadLetterIfDue py settings messageId data deliveryCount "invalid_payload" acc
    else
      (handleMessage py settings messageId data deliveryCount acc).tryExcept fun exc =>
        deadLetterIfDue py settings messageId data deliveryCount
          ("exception:" ++ exc.typeName) acc
  | _ => .raise .attributeError

def processMessages (py : Python) (settings : Settings) :
    List (Nat × Json × Nat) → Progress → App Progress
  | [], acc => pure acc
  | message :: work, acc => do
    let acc ← processMessage py settings message acc
    processMessages py settings work acc

structure PassResult where
  processed : Nat
  inserted : Nat := 0
  conflicts : Nat := 0
  reclaimed : Nat
  deadLettered : Nat := 0
  deriving DecidableEq, Repr

def processEventStream (py : Python) (settings : Settings) : App PassResult := do
  let fresh ← Mq.readEventsBatch py settings settings.batchSize
  let reclaimed ← Mq.reclaimStaleMessages py settings settings.batchSize
  let work := fresh.map (fun md => (md.1, md.2, 1)) ++ reclaimed
  if work.isEmpty then
    let _ ← Mq.streamStats
    return { processed := 0, reclaimed := 0 }
  let acc ← Db.withSession (await .rollback) do
    let acc ← processMessages py settings work {}
    await .commit
    pure acc
  Mq.ackMessages acc.idsToAck
  let _ ← Mq.streamStats
  return ⟨acc.idsToAck.length, acc.inserted, acc.conflicts, reclaimed.length, acc.dead⟩

end EventAnalytics.Workers
