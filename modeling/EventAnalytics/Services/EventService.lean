import EventAnalytics.Mq.Streams

/-! `app/services/event_service.py`: idempotency and the two write paths. -/
namespace EventAnalytics.Services

open Library

def hashIp (py : Python) (ip : Option String) : Json :=
  match ip with
  | none => .null
  | some ip => if ip = "" then .null else .str (py.sha256Hex ip)

def optStr : Option String → Json
  | none => .null
  | some s => .str s

def claimIdempotency (settings : Settings) (eventId : UUID) : App Bool :=
  await (.setNx eventId settings.idemTtlSeconds)

def markDone (settings : Settings) (eventId : UUID) : App Unit :=
  await (.setXx eventId settings.idemTtlSeconds)

def alreadyInDb (eventId : UUID) : App Bool :=
  await (.selectEvent eventId)

def syncRow (py : Python) (payload : EventCreate) (ip userAgent : Option String)
    (serverTs : Nat) : EventRow where
  eventId := payload.eventId
  userId := payload.userId
  sessionId := .str payload.sessionId
  eventType := .str payload.eventType.value
  properties := .obj payload.properties
  clientTs := payload.clientTs
  serverTs := serverTs
  ipHash := hashIp py ip
  userAgent := optStr userAgent

def asyncPayload (py : Python) (payload : EventCreate) (ip userAgent : Option String) : Json :=
  Mq.serializeEventPayload py payload.eventId payload.userId payload.sessionId
    payload.eventType.value payload.properties
    (match payload.clientTs with
      | some ts => .str (py.isoformat ts)
      | none => .null)
    (hashIp py ip) (optStr userAgent)

def ingestMode (settings : Settings) : IngestMode :=
  if settings.isAsyncIngest then .async else .sync

/-- The sync path: write in the request's transaction. -/
def ingestSync (py : Python) (settings : Settings) (payload : EventCreate)
    (ip userAgent : Option String) : App EventIngestResult := do
  let mode := ingestMode settings
  let serverTs ← await .now
  let inserted ← await (.insertEvent (syncRow py payload ip userAgent serverTs) .request)
  markDone settings payload.eventId
  if !inserted then
    pure ⟨payload.eventId, .deduplicated, true, mode⟩
  else
    pure ⟨payload.eventId, .accepted, false, mode⟩

def ingestOne (py : Python) (settings : Settings) (payload : EventCreate)
    (ip userAgent : Option String) : App EventIngestResult := do
  let mode := ingestMode settings
  let claimed ← claimIdempotency settings payload.eventId
  if !claimed then
    -- both answers are the same; the lookup only feeds the metrics
    if ← alreadyInDb payload.eventId then
      pure ⟨payload.eventId, .deduplicated, true, mode⟩
    else
      pure ⟨payload.eventId, .deduplicated, true, mode⟩
  else if settings.isAsyncIngest then
    let _ ← Mq.enqueueEvent py (asyncPayload py payload ip userAgent)
    pure ⟨payload.eventId, .queued, false, mode⟩
  else
    ingestSync py settings payload ip userAgent

end EventAnalytics.Services
