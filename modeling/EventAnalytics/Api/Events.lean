import EventAnalytics.Core.RateLimit
import EventAnalytics.Db.Session
import EventAnalytics.Services.EventService

/-! `app/api/v1/events.py`. -/
namespace EventAnalytics.Api

open Library

def getDb {α : Type} (handler : App α) : App α :=
  Db.getDb (await .commit) (await .rollback) handler

/-- What the handlers read of a request: the peer, two headers, and the user
that the dependencies have authenticated. -/
structure Request where
  clientHost : Option String
  forwardedFor : Option String
  userAgent : Option String
  userId : String

/-- `client_ip` of `app/deps.py`. -/
def clientIp (request : Request) : String :=
  match request.forwardedFor with
  | some forwarded =>
    if forwarded = "" then request.clientHost.getD "unknown"
    else ((forwarded.splitOn ",").headD "").trimAscii.toString
  | none => request.clientHost.getD "unknown"

def statusCode (result : EventIngestResult) : Nat :=
  if result.deduplicated then 200
  else if result.status = .accepted then 201
  else 202

def createEvent (py : Python) (settings : Settings) (request : Request) (body : EventCreate) :
    App (EventIngestResult × Nat) :=
  getDb do
    let _ ← Core.enforceRateLimit settings request.clientHost (some request.userId) true
    let result ← Services.ingestOne py settings body (some (clientIp request)) request.userAgent
    pure (result, statusCode result)

/-- The loop of `create_events_batch`. -/
def ingestAll (py : Python) (settings : Settings) (request : Request) :
    List EventCreate → EventBatchResult → App EventBatchResult
  | [], acc => pure acc
  | item :: items, acc => do
    let r ← Services.ingestOne py settings item (some (clientIp request)) request.userAgent
    ingestAll py settings request items
      { results := acc.results ++ [r]
        accepted := if r.deduplicated then acc.accepted else acc.accepted + 1
        deduplicated := if r.deduplicated then acc.deduplicated + 1 else acc.deduplicated }

def createEventsBatch (py : Python) (settings : Settings) (request : Request)
    (events : List EventCreate) : App EventBatchResult :=
  getDb do
    let _ ← Core.enforceRateLimit settings request.clientHost (some request.userId) true
    ingestAll py settings request events ⟨[], 0, 0⟩

end EventAnalytics.Api
