import EventAnalytics.Core.Middleware

/-! The metrics labels of the routes that have a path parameter. -/
namespace EventAnalytics.Api

open Library EventAnalytics.Core

/-- `GET /events/{event_id}`, `PATCH /admin/users/{user_id}` and
`POST /admin/jobs/{job_name}`. -/
inductive Route
  | getEvent
  | patchUser
  | triggerJob
  deriving DecidableEq, Repr

namespace Route

/-- The path up to the slash before the parameter. -/
def stem : Route → String
  | getEvent => "/events"
  | patchUser => "/admin/users"
  | triggerJob => "/admin/jobs"

def path (apiV1Prefix : String) (route : Route) (value : String) : String :=
  apiV1Prefix ++ route.stem ++ "/" ++ value

def labelStem (apiV1Prefix : String) (route : Route) : String :=
  sub numRe "/{id}" (sub uuidRe "{id}" (apiV1Prefix ++ route.stem))

/-- The characters that the stem and its slash leave of the 120. -/
def room (apiV1Prefix : String) (route : Route) : Nat :=
  119 - (route.labelStem apiV1Prefix).length

example : [getEvent, patchUser, triggerJob].map (room "/api/v1") = [105, 100, 101] := by decide

end Route

namespace Route

end Route

/-- What a label keeps of a UUID: nothing of the hyphenated form, and of 32
digits those from the first letter on. -/
def kept (u : List Char) : List Char :=
  if begins uuidRe.classes u then [] else u.dropWhile isDecimal

namespace Route

variable {apiV1Prefix value value' : String} {route : Route}

end Route

end EventAnalytics.Api
