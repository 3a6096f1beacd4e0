import EventAnalytics.Backend
import EventAnalytics.Library.Footprint
import EventAnalytics.Settings

/-! `app/core/rate_limit.py`: the three scopes of the limiter. -/
namespace EventAnalytics.Core

open Library

/-- `uuid.hex[:8]`, as a number. -/
def hex8 (u : UUID) : Nat := u.toNat / 2 ^ 96

/-- `_sliding_window`: the clock is read first, the script runs later. -/
def slidingWindowCall (key : String) (limit windowSeconds : Nat) : App Reply := do
  let nowMs ← await .now
  let random ← await .uuid4
  await (.evalSlidingWindow key nowMs (windowSeconds * 1000) limit (toLex (nowMs, hex8 random)))

def rateLimitError (message : String) : Exn :=
  .appError "rate_limited" message 429

def scopeHeaders (scope : String) (limit : Nat) (reply : Reply) : List (String × String) :=
  [("X-RateLimit-Limit-" ++ scope, toString limit),
    ("X-RateLimit-Remaining-" ++ scope, toString (limit - reply.count)),
    ("X-RateLimit-Reset-" ++ scope, toString reply.reset)]

def enforceScope (key scope title : String) (limit window : Nat) :
    App (List (String × String)) := do
  let reply ← slidingWindowCall key limit window
  if !reply.allowed then
    Prog.raise (rateLimitError
      (title ++ " rate limit exceeded (" ++ toString limit ++ "/" ++ toString window ++ "s)"))
  else
    pure (scopeHeaders scope limit reply)

def enforceUser (settings : Settings) (user : Option String) : App (List (String × String)) :=
  match user with
  | some userId =>
    enforceScope ("rl:sw:user:" ++ userId) "User" "User" settings.rateLimitUser
      settings.rateLimitWindowSeconds
  | none => pure []

def enforceEvents (settings : Settings) (eventWrite : Bool) (who : String) :
    App (List (String × String)) :=
  if eventWrite then
    enforceScope ("rl:sw:events:" ++ who) "Events" "Event write" settings.rateLimitEvents
      settings.rateLimitWindowSeconds
  else pure []

/-- `clientHost` is `request.client.host`, when there is a client. -/
def enforceRateLimit (settings : Settings) (clientHost userId : Option String)
    (eventWrite : Bool) : App (List (String × String)) := do
  let clientIp := clientHost.getD "unknown"
  let user := userId.filter (· ≠ "")
  let ip ← enforceScope ("rl:sw:ip:" ++ clientIp) "IP" "IP" settings.rateLimitIp
    settings.rateLimitWindowSeconds
  let perUser ← enforceUser settings user
  let events ← enforceEvents settings eventWrite (user.getD clientIp)
  pure (ip ++ [("X-RateLimit-Policy", "sliding-window")] ++ perUser ++ events)

section Commands

variable {N : Cmd → Prop}

theorem issues_enforceScope {key : String} (hnow : N .now) (huuid : N .uuid4)
    (heval : ∀ now window limit member, N (.evalSlidingWindow key now window limit member))
    (scope title : String) (limit window : Nat) :
    (enforceScope key scope title limit window).Issues N := by
  unfold enforceScope slidingWindowCall
  refine Prog.Issues.bind ?_ fun reply => ?_
  · refine Prog.Issues.bind (Prog.issues_perform hnow) fun _ => ?_
    exact Prog.Issues.bind (Prog.issues_perform huuid) fun _ => Prog.issues_perform (heval _ _ _ _)
  · split <;> trivial

theorem issues_enforceRateLimit (hnow : N .now) (huuid : N .uuid4)
    (heval : ∀ key now window limit member, N (.evalSlidingWindow key now window limit member))
    (settings : Settings) (clientHost userId : Option String) (eventWrite : Bool) :
    (enforceRateLimit settings clientHost userId eventWrite).Issues N := by
  have hscope : ∀ key scope title limit window,
      (enforceScope key scope title limit window).Issues N :=
    fun key => issues_enforceScope hnow huuid (heval key)
  unfold enforceRateLimit
  refine Prog.Issues.bind (hscope _ _ _ _ _) fun _ => ?_
  refine Prog.Issues.bind ?_ fun _ => Prog.Issues.bind ?_ fun _ => trivial
  · unfold enforceUser
    split
    · exact hscope _ _ _ _ _
    · trivial
  · unfold enforceEvents
    split
    · exact hscope _ _ _ _ _
    · trivial

end Commands

end EventAnalytics.Core
