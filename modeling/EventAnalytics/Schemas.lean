import EventAnalytics.Python

/-! `app/schemas/event.py` and `app/db/models/event.py`. -/
namespace EventAnalytics

inductive EventType
  | view
  | search
  | addToCart
  | order
  deriving DecidableEq, Repr

def EventType.value : EventType → String
  | view => "view"
  | search => "search"
  | addToCart => "add_to_cart"
  | order => "order"

structure EventCreate where
  eventId : UUID
  userId : Option UUID := none
  sessionId : String
  eventType : EventType
  properties : Dict := []
  clientTs : Option Datetime := none

inductive IngestStatus
  | accepted
  | deduplicated
  | queued
  deriving DecidableEq, Repr

inductive IngestMode
  | async
  | sync
  deriving DecidableEq, Repr

structure EventIngestResult where
  eventId : UUID
  status : IngestStatus
  deduplicated : Bool
  mode : IngestMode
  deriving DecidableEq, Repr

structure EventBatchResult where
  results : List EventIngestResult
  accepted : Nat
  deduplicated : Nat
  deriving DecidableEq, Repr

/-- The values bound by an `INSERT INTO events`. The worker binds whatever JSON
value the message carried, so the text columns are JSON here; `null` is `NULL`.
`serverTs` is in milliseconds of the epoch. -/
structure EventRow where
  eventId : UUID
  userId : Option UUID
  sessionId : Json
  eventType : Json
  properties : Json
  clientTs : Option Datetime
  serverTs : Nat
  ipHash : Json
  userAgent : Json

/-- The row but for the time at which it was written. -/
def EventRow.untimed (row : EventRow) : EventRow :=
  { row with serverTs := 0 }

theorem untimed_make {make : Nat → EventRow} {row : EventRow}
    (hmake : ∀ serverTs, make serverTs = { row with serverTs := serverTs }) (serverTs : Nat) :
    (make serverTs).untimed = make 0 := by
  rw [hmake, hmake]
  rfl

structure DeadLetter where
  originalId : Nat
  reason : String
  deliveryCount : Nat
  data : String
  deriving DecidableEq, Repr

end EventAnalytics
