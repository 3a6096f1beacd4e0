import EventAnalytics.Backend
import EventAnalytics.Settings

/-! `app/mq/streams.py`: produce, consume, reclaim, dead-letter, stats. -/
namespace EventAnalytics.Mq

open Library Redis

/-- A payload as `_parse_fields` returns it: any JSON value that decodes, or the
marker dictionary for text that is not JSON. -/
def parseFields (py : Python) (fields : Entry) : Except Exn Json :=
  match fields.data with
  | none => .ok (.obj [])
  | some raw =>
    if raw = "" then .ok (.obj [])
    else
      match py.loads raw with
      | .error .jsonDecodeError =>
        .ok (.obj [("_raw", .str raw), ("_parse_error", .bool true)])
      | r => r

/-- The payload as `json` writes it; `null` is Python's `None`. -/
def serializeEventPayload (py : Python) (eventId : UUID) (userId : Option UUID)
    (sessionId eventType : String) (properties : Dict) (clientTs ipHash userAgent : Json) : Json :=
  .obj
    [("event_id", .str (py.uuidStr eventId)),
      ("user_id", match userId with
        | some u => .str (py.uuidStr u)
        | none => .null),
      ("session_id", .str sessionId),
      ("event_type", .str eventType),
      ("properties", .obj properties),
      ("client_ts", clientTs),
      ("ip_hash", ipHash),
      ("user_agent", userAgent)]

def enqueueEvent (py : Python) (payload : Json) : App Nat :=
  await (.xadd (py.dumps payload))

/-- The loop over `entries` in `read_events_batch`. -/
def parseEntries (py : Python) : List (Nat × Entry) → Except Exn (List (Nat × Json))
  | [] => .ok []
  | (mid, fields) :: rest => do
    let data ← parseFields py fields
    let messages ← parseEntries py rest
    pure ((mid, data) :: messages)

def batchCount (settings : Settings) (count : Nat) : Nat :=
  if count = 0 then settings.batchSize else count

/-- The client refuses a count that is not positive before it sends the command. -/
def xreadgroup (consumer : String) (count : Nat) : App (List (Nat × Entry)) :=
  if count = 0 then .raise .dataError else await (.xreadgroup consumer count)

def readEventsBatch (py : Python) (settings : Settings) (count : Nat) :
    App (List (Nat × Json)) := do
  let entries ← xreadgroup settings.eventConsumerName (batchCount settings count)
  Prog.ofExcept (parseEntries py entries)

/-- `delivery_counts.get(mid, 1)`: a later item of the same id would win. -/
def deliveryCountOf (counts : List (Nat × Nat)) (mid : Nat) : Nat :=
  (counts.reverse.lookup mid).getD 1

def reclaimStaleMessages (py : Python) (settings : Settings) (count : Nat) :
    App (List (Nat × Json × Nat)) := do
  let count := batchCount settings count
  let claimed ← Prog.tryExcept
    (some <$> await
      (.xautoclaim settings.eventConsumerName settings.eventClaimMinIdleMs count))
    fun _ => pure none
  match claimed with
  | none => pure []
  | some entries =>
    let deliveryCounts ← Prog.tryExcept (await (.xpendingRange count)) fun _ => pure []
    let out ← Prog.ofExcept (parseEntries py entries)
    pure (out.map fun md => (md.1, md.2, deliveryCountOf deliveryCounts md.1))

def deadLetter (py : Python) (messageId : Nat) (payload : Json) (reason : String)
    (deliveryCount : Nat) : App Unit := do
  await (.xaddDlq ⟨messageId, reason, deliveryCount, py.dumps payload⟩)
  await (.xack [messageId] .deadLetter)
  Prog.tryExcept (await (.xdel messageId)) fun _ => pure ()

def ackMessages (messageIds : List Nat) : App Unit :=
  if messageIds.isEmpty then pure () else await (.xack messageIds .ackMessages)

structure StreamStats where
  length : Nat
  pending : Nat
  dlqLength : Nat
  deriving DecidableEq, Repr

def streamStats : App StreamStats := do
  let length ← await .xlen
  let dlqLength ← Prog.tryExcept (await .xlenDlq) fun _ => pure (0 : Nat)
  let pending ← Prog.tryExcept (await .xinfoGroups) fun _ => pure (0 : Nat)
  pure ⟨length, pending, dlqLength⟩

end EventAnalytics.Mq
