import EventAnalytics.Api.Events
import EventAnalytics.Core.Charges
import Mathlib.Algebra.GroupWithZero.Nat

/-! What the event-write scope bounds. Both routes charge it once a request, so it
bounds requests, and a batch carries up to a hundred events. -/
namespace EventAnalytics.Api

open Library Library.Discipline Library.SlidingLog EventAnalytics.Core Redis

/-- A body of the batch route, with the bounds that its schema checks. -/
structure EventBatchCreate where
  events : List EventCreate
  minLength : 1 ≤ events.length
  maxLength : events.length ≤ 100

inductive Submission
  | single (body : EventCreate)
  | batch (body : EventBatchCreate)

def Submission.size : Submission → Nat
  | single _ => 1
  | batch body => body.events.length

theorem Submission.size_le (submission : Submission) : submission.size ≤ 100 := by
  cases submission with
  | single body => exact (by decide : 1 ≤ 100)
  | batch body => exact body.maxLength

/-- The route, with the results of its answer. -/
def Submission.run (py : Python) (settings : Settings) (request : Request) :
    Submission → App (List EventIngestResult)
  | single body => do
    let r ← createEvent py settings request body
    pure [r.1]
  | batch body => do
    let r ← createEventsBatch py settings request body.events
    pure r.results

def eventsKey (user : String) : String := "rl:sw:events:" ++ user

/-- The events of an answer that are `accepted` or `queued`. -/
def countNew : Except Exn (List EventIngestResult) → Nat
  | .ok results => results.countP fun r => r.status ≠ .deduplicated
  | .error _ => 0

/-- A request, the stores before and after it, and its answer. -/
structure Exchange where
  request : Request
  submission : Submission
  before : World
  answer : Except Exn (List EventIngestResult)
  after : World

namespace Exchange

def now (x : Exchange) : Nat := x.before.clock

/-- The member of the request in the event window: the third draw of `uuid4`. -/
def member (x : Exchange) : Member :=
  toLex (x.before.clock, hex8 (x.before.uuids (x.before.drawn + 2)))

def newEvents (x : Exchange) : Nat := countNew x.answer

end Exchange

/-- The requests of `user`, one after the other, from a time at which the event window
is `z`. Commands may fail, and between two requests anything may happen that leaves the
window alone. -/
inductive Sends (py : Python) (settings : Settings) (user : String) :
    ZSet Member → Nat → List Exchange → Prop
  | nil {z : ZSet Member} {t : Nat} : Sends py settings user z t []
  | cons {t : Nat} {x : Exchange} {xs : List Exchange} (huser : x.request.userId = user)
      (htime : t ≤ x.now)
      (hrun : Solo backend .any 0 x.before (x.submission.run py settings x.request) x.answer
        x.after)
      (hrest : Sends py settings user (x.after.limiter (eventsKey user)) x.now xs) :
      Sends py settings user (x.before.limiter (eventsKey user)) t (x :: xs)

section Request

variable {i n : Nat} {key : String} {w w₀ : World} {py : Python} {settings : Settings}

theorem exec_spares {ch : Choice} {c : Cmd} {r : Except Exn c.Resp} {w' : World}
    (hexec : backend.exec i ch w c = some (r, w')) (hspares : spares key c) :
    w'.limiter key = w.limiter key := by
  cases ch with
  | ok => exact spares_effect hspares hexec
  | raiseBefore =>
      cases hexec
      cases c <;> rfl
  | raiseAfter =>
      cases hexec
      have hafter : ∀ w₁, ((effect i w c).map Prod.snd).getD w = w₁ →
          w₁.limiter key = w.limiter key := by
        intro w₁ hw₁
        cases heffect : effect i w c with
        | none =>
            rw [heffect] at hw₁
            exact congrArg (World.limiter · key) hw₁.symm
        | some rw =>
            rw [heffect] at hw₁
            exact hw₁ ▸ spares_effect hspares heffect
      cases c <;> first | rfl | exact hafter _ rfl

/-- The request is where only the limiter has run, and not yet on the event window. -/
structure Steady (key : String) (n : Nat) (w₀ w : World) : Prop where
  clock : w.clock = w₀.clock
  uuids : w.uuids = w₀.uuids
  drawn : w.drawn = w₀.drawn + n
  window : w.limiter key = w₀.limiter key

theorem Steady.refl (key : String) (w : World) : Steady key 0 w w :=
  ⟨rfl, rfl, rfl, rfl⟩

theorem wp_now (hw : Steady key n w₀ w) :
    (alone backend .any i).wp i (await .now)
      (ends (fun t w' => t = w₀.clock ∧ Steady key n w₀ w')
        fun _ w' => w'.limiter key = w₀.limiter key) w := by
  refine wp_alone (fun ch t w' _ hexec => ?_) fun ch e w' _ hexec =>
    (exec_spares hexec trivial).trans hw.window
  cases ch <;> cases hexec
  exact ⟨hw.clock, hw⟩

theorem wp_uuid4 (hw : Steady key n w₀ w) :
    (alone backend .any i).wp i (await .uuid4)
      (ends (fun u w' => u = w₀.uuids (w₀.drawn + n) ∧ Steady key (n + 1) w₀ w')
        fun _ w' => w'.limiter key = w₀.limiter key) w := by
  refine wp_alone (fun ch u w' _ hexec => ?_) fun ch e w' _ hexec =>
    (exec_spares hexec trivial).trans hw.window
  cases ch <;> cases hexec
  exact ⟨by rw [hw.uuids, hw.drawn], hw.clock, hw.uuids, congrArg (· + 1) hw.drawn, hw.window⟩

theorem wp_otherScope {key' : String} (hkey : key' ≠ key) (hw : Steady key n w₀ w)
    (scope title : String) (limit windowSeconds : Nat) :
    (alone backend .any i).wp i (enforceScope key' scope title limit windowSeconds)
      (ends (fun _ => Steady key (n + 1) w₀) fun _ w' => w'.limiter key = w₀.limiter key) w := by
  unfold enforceScope slidingWindowCall
  refine wp_seq (S := fun _ => Steady key (n + 1) w₀) ?_ fun reply w₃ hw₃ => ?_
  · refine wp_seq (wp_now hw) fun t w₁ hw₁ => wp_seq (wp_uuid4 hw₁.2) fun u w₂ hw₂ => ?_
    refine wp_alone (fun ch reply w' _ hexec => ?_) fun ch e w' _ hexec => ?_
    · have hwindow := (exec_spares hexec hkey).trans hw₂.2.window
      cases ch <;> cases hexec
      exact ⟨hw₂.2.clock, hw₂.2.uuids, hw₂.2.drawn, hwindow⟩
    · exact (exec_spares hexec hkey).trans hw₂.2.window
  · split
    · exact hw₃.window
    · exact hw₃

/-- What the script answers for the event window, and the set that it leaves. -/
def eventsReply (settings : Settings) (key : String) (w : World) : Reply × ZSet Member :=
  slidingWindow (w.limiter key) settings.rateLimitEvents settings.rateLimitWindowSeconds w.clock
    (toLex (w.clock, hex8 (w.uuids (w.drawn + 2))))

/-- The event scope has let the request through. -/
structure Charged (settings : Settings) (key : String) (w₀ w : World) : Prop where
  allowed : (eventsReply settings key w₀).1.allowed = true
  window : w.limiter key = (eventsReply settings key w₀).2

/-- The script has run for the event window, or it has not. -/
def Asked (settings : Settings) (key : String) (w₀ w : World) : Prop :=
  w.limiter key = w₀.limiter key ∨ w.limiter key = (eventsReply settings key w₀).2

theorem wp_eventsScope (hw : Steady key 2 w₀ w) (scope title : String) :
    (alone backend .any i).wp i
      (enforceScope key scope title settings.rateLimitEvents settings.rateLimitWindowSeconds)
      (ends (fun _ => Charged settings key w₀) fun _ => Asked settings key w₀) w := by
  unfold enforceScope slidingWindowCall
  refine wp_seq (S := fun reply w' => reply = (eventsReply settings key w₀).1 ∧
    w'.limiter key = (eventsReply settings key w₀).2) ?_ fun reply w₃ hw₃ => ?_
  · refine wp_seq (wp_ends_mono (fun _ _ h => h) (fun _ _ => .inl) (wp_now hw))
      fun t w₁ hw₁ => ?_
    refine wp_seq (wp_ends_mono (fun _ _ h => h) (fun _ _ => .inl) (wp_uuid4 hw₁.2))
      fun u w₂ hw₂ => ?_
    obtain ⟨rfl, -⟩ := hw₁
    obtain ⟨rfl, hsteady⟩ := hw₂
    have hscript : slidingWindowLua w₂.clock (w₂.limiter key) w₀.clock
        (settings.rateLimitWindowSeconds * 1000) settings.rateLimitEvents
        (toLex (w₀.clock, hex8 (w₀.uuids (w₀.drawn + 2)))) = eventsReply settings key w₀ := by
      rw [hsteady.clock, hsteady.window]
      rfl
    refine wp_alone (fun ch reply w' _ hexec => ?_) fun ch e w' _ hexec => ?_
    · cases ch <;> cases hexec
      rw [hscript]
      exact ⟨rfl, if_pos rfl⟩
    · cases ch <;> cases hexec
      · exact .inl hsteady.window
      · refine .inr ?_
        rw [← hscript]
        exact if_pos rfl
  · obtain ⟨rfl, hwindow⟩ := hw₃
    cases hallowed : (eventsReply settings key w₀).1.allowed with
    | true => exact ⟨hallowed, hwindow⟩
    | false => exact .inr hwindow

theorem scopeKey_ne (rest user : String) :
    "rl:sw:ip:" ++ rest ≠ eventsKey user ∧ "rl:sw:user:" ++ rest ≠ eventsKey user := by
  constructor <;> intro heq <;> have hchars := congrArg String.toList heq <;>
    simp [eventsKey, String.toList_append] at hchars

theorem wp_limiter {user : String} (huser : user ≠ "") (clientHost : Option String) :
    (alone backend .any i).wp i (enforceRateLimit settings clientHost (some user) true)
      (ends (fun _ => Charged settings (eventsKey user) w)
        fun _ => Asked settings (eventsKey user) w) w := by
  have hsome : (some user).filter (fun u => u ≠ "") = some user := by simp [huser]
  unfold enforceRateLimit
  simp only [hsome, enforceUser, enforceEvents, if_true, Option.getD_some]
  refine wp_seq (wp_ends_mono (fun _ _ h => h) (fun _ _ => .inl)
    (wp_otherScope (scopeKey_ne _ user).1 (.refl _ w) _ _ _ _)) fun ip w₁ hw₁ => ?_
  refine wp_seq (wp_ends_mono (fun _ _ h => h) (fun _ _ => .inl)
    (wp_otherScope (scopeKey_ne _ user).2 hw₁ _ _ _ _)) fun perUser w₂ hw₂ => ?_
  exact wp_seq (wp_eventsScope hw₂ _ _) fun events w₃ hw₃ => hw₃

theorem wp_behind {α : Type} {w₁ : World} {p : App α} (hp : p.Issues (spares key))
    (hw : Charged settings key w₀ w₁) :
    (alone backend .any i).wp i p
      (ends (fun _ => Charged settings key w₀) fun _ => Charged settings key w₀) w₁ :=
  wp_alone_issues hp
    (fun _ _ _ _ _ hc hI _ hexec => ⟨hI.allowed, (exec_spares hexec hc).trans hI.window⟩) hw

theorem wp_route {α : Type} {user : String} (huser : user ≠ "") (clientHost : Option String)
    {handler : App α} (hhandler : handler.Issues (spares (eventsKey user))) :
    (alone backend .any i).wp i
      (getDb do
        let _ ← enforceRateLimit settings clientHost (some user) true
        handler)
      (ends (fun _ => Charged settings (eventsKey user) w)
        fun _ => Asked settings (eventsKey user) w) w := by
  have hcommand : ∀ {c : Cmd} {w₁ : World}, spares (eventsKey user) c →
      Asked settings (eventsKey user) w w₁ → (alone backend .any i).wp i (await c)
        (ends (fun _ => Asked settings (eventsKey user) w)
          fun _ => Asked settings (eventsKey user) w) w₁ := fun hc hw₁ =>
    wp_alone_issues (Prog.issues_perform hc)
      (fun _ _ _ _ _ hc hI _ hexec => by rwa [Asked, exec_spares hexec hc]) hw₁
  unfold getDb Db.getDb Db.withSession
  refine wp_seq (S := fun _ => Charged settings (eventsKey user) w)
    (wp_try (F := fun _ => Asked settings (eventsKey user) w) ?_ fun exc w₁ hw₁ => ?_)
    fun a w₁ hw₁ => ?_
  · refine wp_seq (S := fun _ => Charged settings (eventsKey user) w)
      (wp_seq (wp_limiter huser clientHost) fun _ w₁ hw₁ => ?_) fun a w₂ hw₂ => ?_
    · exact wp_ends_mono (fun _ _ h => h) (fun _ _ h => .inr h.window) (wp_behind hhandler hw₁)
    · refine wp_seq (wp_ends_mono (fun _ _ h => h) (fun _ _ h => .inr h.window)
        (wp_behind (Prog.issues_perform trivial) hw₂)) fun _ w₃ hw₃ => hw₃
  · exact wp_seq (hcommand trivial hw₁) fun _ w₂ hw₂ => hw₂
  · exact wp_seq (wp_ends_mono (fun _ _ h => h) (fun _ _ h => .inr h.window)
      (wp_behind (Prog.issues_perform trivial) hw₁)) fun _ w₂ hw₂ => hw₂

end Request

section Routes

variable {i : Nat} {key user : String} {w w' : World} {py : Python} {settings : Settings}

theorem spares_ingestOne (payload : EventCreate) (ip userAgent : Option String) :
    (Services.ingestOne py settings payload ip userAgent).Issues (spares key) := by
  unfold Services.ingestOne Services.claimIdempotency Services.alreadyInDb Mq.enqueueEvent
  refine Prog.Issues.bind (Prog.issues_perform trivial) fun claimed => ?_
  split
  · refine Prog.Issues.bind (Prog.issues_perform trivial) fun found => ?_
    split <;> trivial
  · split
    · exact Prog.Issues.bind (Prog.issues_perform trivial) fun _ => trivial
    · unfold Services.ingestSync Services.markDone
      refine Prog.Issues.bind (Prog.issues_perform trivial) fun serverTs => ?_
      refine Prog.Issues.bind (Prog.issues_perform trivial) fun inserted => ?_
      refine Prog.Issues.bind (Prog.issues_perform trivial) fun _ => ?_
      split <;> trivial

theorem spares_ingestAll (request : Request) (events : List EventCreate) (acc : EventBatchResult) :
    (ingestAll py settings request events acc).Issues (spares key) := by
  induction events generalizing acc with
  | nil => trivial
  | cons item events ih => exact (spares_ingestOne item _ _).bind fun r => ih _

theorem returns_ingestAll (request : Request) (events : List EventCreate)
    (acc : EventBatchResult) :
    (ingestAll py settings request events acc).Returns
      fun res => res.results.length = acc.results.length + events.length := by
  induction events generalizing acc with
  | nil => rfl
  | cons item events ih =>
      refine (Prog.returns_any _).bind fun r _ => ?_
      have hrest := ih { results := acc.results ++ [r]
                         accepted := if r.deduplicated then acc.accepted else acc.accepted + 1
                         deduplicated :=
                          if r.deduplicated then acc.deduplicated + 1 else acc.deduplicated }
      rwa [List.length_append, List.length_singleton, Nat.add_assoc, Nat.add_comm 1] at hrest

theorem returns_getDb {α : Type} {P : α → Prop} {handler : App α} (h : handler.Returns P) :
    (getDb handler).Returns P := by
  refine Prog.Returns.bind (P := P) (Prog.Returns.tryExcept ?_ fun exc => ?_) fun a ha => ?_
  · exact h.bind fun a ha => (Prog.returns_any _).bind fun _ _ => ha
  · exact (Prog.returns_any _).bind fun _ _ => trivial
  · exact (Prog.returns_any _).bind fun _ _ => ha

theorem returns_submission (request : Request) (submission : Submission) :
    (submission.run py settings request).Returns fun results =>
      results.length = submission.size := by
  cases submission with
  | single body => exact (Prog.returns_any _).bind fun r _ => rfl
  | batch body =>
      have hbatch : (createEventsBatch py settings request body.events).Returns
          fun res => res.results.length = body.events.length := by
        apply returns_getDb
        apply (Prog.returns_any _).bind
        intro _ _
        simpa using returns_ingestAll request body.events ⟨[], 0, 0⟩
      exact hbatch.bind fun res hres => hres

theorem wp_submission (request : Request) (huser : request.userId ≠ "") (submission : Submission) :
    (alone backend .any i).wp i (submission.run py settings request)
      (ends (fun _ => Charged settings (eventsKey request.userId) w)
        fun _ => Asked settings (eventsKey request.userId) w) w := by
  cases submission with
  | single body =>
      refine wp_seq (wp_route huser request.clientHost ?_) fun r w₁ hw₁ => hw₁
      exact (spares_ingestOne body _ _).bind fun _ => trivial
  | batch body =>
      refine wp_seq (wp_route huser request.clientHost ?_) fun r w₁ hw₁ => hw₁
      exact spares_ingestAll request body.events _

theorem answered_length {x : Exchange} {results : List EventIngestResult}
    (hrun : Solo backend .any 0 x.before (x.submission.run py settings x.request) x.answer x.after)
    (hok : x.answer = .ok results) : results.length = x.submission.size :=
  (returns_submission x.request x.submission).solo hrun hok

end Routes

section History

variable {user : String} {t : Nat} {log : List Nat} {py : Python} {settings : Settings}

theorem Exchange.outcome {x : Exchange} (hne : x.request.userId ≠ "")
    (hrun : Solo backend .any 0 x.before (x.submission.run py settings x.request) x.answer
      x.after) :
    (x.answer.isOk = true → Charged settings (eventsKey x.request.userId) x.before x.after) ∧
      Asked settings (eventsKey x.request.userId) x.before x.after := by
  have hend := hrun.sound (wp_submission x.request hne x.submission)
  cases hanswer : x.answer with
  | ok results =>
      rw [hanswer] at hend
      exact ⟨fun _ => hend, .inr hend.window⟩
  | error exc =>
      rw [hanswer] at hend
      exact ⟨by simp [Except.isOk, Except.toBool], hend⟩

/-- One request: whether it is answered or fails behind the limiter, what it adds to the
history of the event window keeps to the limit. -/
theorem Exchange.adds {x : Exchange} (hne : x.request.userId ≠ "")
    (hrun : Solo backend .any 0 x.before (x.submission.run py settings x.request) x.answer x.after)
    (htime : t ≤ x.now)
    (htracks : Tracks (settings.rateLimitWindowSeconds * 1000)
      (x.before.limiter (eventsKey x.request.userId)) log t)
    (hbounded : Bounded settings.rateLimitEvents (settings.rateLimitWindowSeconds * 1000) log)
    (hnew : ∀ e ∈ (x.before.limiter (eventsKey x.request.userId)).entries,
      e.member ≠ x.member) :
    ∃ added, (x.answer.isOk = true → added = [x.now]) ∧
      Bounded settings.rateLimitEvents (settings.rateLimitWindowSeconds * 1000) (log ++ added) ∧
      Tracks (settings.rateLimitWindowSeconds * 1000)
        (x.after.limiter (eventsKey x.request.userId)) (log ++ added) x.now ∧
      ∀ e ∈ (x.after.limiter (eventsKey x.request.userId)).entries,
        e ∈ (x.before.limiter (eventsKey x.request.userId)).entries ∨ e.member = x.member := by
  obtain ⟨hok, hasked⟩ := x.outcome hne hrun
  obtain ⟨hallowed, -, hcalled, hentries⟩ :=
    htracks.slidingWindow settings.rateLimitEvents htime hnew
  have hcharge := hbounded.charge fun s hs => (htracks.past s hs).trans htime
  by_cases hadded : inWindow (settings.rateLimitWindowSeconds * 1000) x.now log <
      settings.rateLimitEvents ∧ x.after.limiter (eventsKey x.request.userId) =
      (eventsReply settings (eventsKey x.request.userId) x.before).2
  · refine ⟨[x.now], fun _ => rfl, ?_, ?_, ?_⟩
    · rwa [charge, if_pos hadded.1] at hcharge
    · rw [if_pos hadded.1] at hcalled
      exact hadded.2 ▸ hcalled
    · rw [hadded.2]
      exact hentries
  · refine ⟨[], fun hyes => ?_, ?_, ?_, ?_⟩
    · have hroom := of_decide_eq_true (hallowed.symm.trans (hok hyes).allowed)
      exact absurd ⟨hroom, (hok hyes).window⟩ hadded
    · rwa [List.append_nil]
    · rw [List.append_nil]
      rcases hasked with hsame | hreply
      · exact hsame ▸ htracks.later htime
      · rw [if_neg fun hlt => hadded ⟨hlt, hreply⟩] at hcalled
        exact hreply ▸ hcalled
    · rcases hasked with hsame | hreply
      · exact fun e he => .inl (hsame ▸ he)
      · rw [hreply]
        exact hentries

/-- Every answered request is in the history of the event window, which keeps to the
limit. -/
theorem Sends.adds {z : ZSet Member} {xs : List Exchange} (hsends : Sends py settings user z t xs)
    (hne : user ≠ "") (htracks : Tracks (settings.rateLimitWindowSeconds * 1000) z log t)
    (hbounded : Bounded settings.rateLimitEvents (settings.rateLimitWindowSeconds * 1000) log)
    (hnew : ∀ e ∈ z.entries, ∀ x ∈ xs, e.member ≠ x.member)
    (hdistinct : (xs.map Exchange.member).Nodup) :
    ∃ added, ((xs.filter fun x => x.answer.isOk).map Exchange.now).Sublist added ∧
      Bounded settings.rateLimitEvents (settings.rateLimitWindowSeconds * 1000) (log ++ added) := by
  induction hsends generalizing log with
  | nil => exact ⟨[], .slnil, by rwa [List.append_nil]⟩
  | @cons t x xs huser htime hrun hrest ih =>
      subst huser
      obtain ⟨hfirst, hrest'⟩ := List.nodup_cons.mp hdistinct
      obtain ⟨added, hok, hbounded', htracks', hentries⟩ := Exchange.adds hne hrun htime htracks
        hbounded fun e he => hnew e he x List.mem_cons_self
      have hnew' : ∀ e ∈ (x.after.limiter (eventsKey x.request.userId)).entries,
          ∀ y ∈ xs, e.member ≠ y.member := by
        intro e he y hy
        rcases hentries e he with he | he
        · exact hnew e he y (List.mem_cons_of_mem _ hy)
        · exact he ▸ fun heq => hfirst (heq ▸ List.mem_map_of_mem hy)
      obtain ⟨more, hsub, hall⟩ := ih htracks' hbounded' hnew' hrest'
      refine ⟨added ++ more, ?_, by rwa [← List.append_assoc]⟩
      cases hanswer : x.answer.isOk with
      | true =>
          simp only [List.filter_cons, hanswer, if_true, hok hanswer]
          exact hsub.cons_cons x.now
      | false =>
          simp only [List.filter_cons, hanswer, Bool.false_eq_true, if_false]
          exact hsub.trans (List.sublist_append_right _ _)

theorem newEvents_le {z : ZSet Member} {xs : List Exchange}
    (hsends : Sends py settings user z t xs) :
    ∀ x ∈ xs, x.newEvents ≤ if x.answer.isOk then x.submission.size else 0 := by
  induction hsends with
  | nil => simp
  | @cons t x xs huser htime hrun hrest ih =>
      refine List.forall_mem_cons.mpr ⟨?_, ih⟩
      unfold Exchange.newEvents
      cases hanswer : x.answer with
      | error exc => exact Nat.zero_le _
      | ok results => exact List.countP_le_length.trans (answered_length hrun hanswer).le

theorem sum_newEvents_le {xs : List Exchange} {k : Nat}
    (hle : ∀ x ∈ xs, x.newEvents ≤ if x.answer.isOk then k else 0) :
    (xs.map Exchange.newEvents).sum ≤ k * xs.countP fun x => x.answer.isOk := by
  induction xs with
  | nil => simp
  | cons x xs ih =>
      obtain ⟨hx, hxs⟩ := List.forall_mem_cons.mp hle
      have hrest := ih hxs
      rw [List.map_cons, List.sum_cons, List.countP_cons]
      split at hx
      · rename_i hok
        rw [if_pos hok, Nat.mul_add, Nat.mul_one]
        omega
      · rename_i hok
        rw [if_neg hok, Nat.add_zero]
        omega

end History

/-- The event-write scope bounds the answered requests of a user, on whichever route: in
an interval of one window at most `rate_limit_events` of them. Their events are bounded by
as many times the number that one request carries. -/
theorem event_writes_bounded {py : Python} {settings : Settings} {user : String} (hne : user ≠ "")
    {xs : List Exchange} (hsends : Sends py settings user ZSet.empty 0 xs)
    (hdistinct : (xs.map Exchange.member).Nodup) (t : Nat) :
    let during := xs.filter fun x =>
      decide (t ≤ x.now ∧ x.now < t + settings.rateLimitWindowSeconds * 1000)
    (during.countP fun x => x.answer.isOk) ≤ settings.rateLimitEvents ∧
      (during.map Exchange.newEvents).sum ≤ 100 * settings.rateLimitEvents ∧
      ∀ k, (∀ x ∈ during, x.submission.size ≤ k) →
        (during.map Exchange.newEvents).sum ≤ k * settings.rateLimitEvents := by
  intro during
  obtain ⟨added, hsub, hbounded⟩ := hsends.adds hne (Tracks.empty _ 0) (bounded_nil _ _)
    (by simp) hdistinct
  rw [List.nil_append] at hbounded
  have hanswered : (during.countP fun x => x.answer.isOk) ≤ settings.rateLimitEvents := by
    refine le_trans ?_ ((hsub.countP_le).trans (hbounded.interval t))
    rw [List.countP_filter, List.countP_map, List.countP_filter]
    exact (List.countP_congr fun x _ => by simp [and_comm]).le
  have hevents : ∀ k, (∀ x ∈ during, x.submission.size ≤ k) →
      (during.map Exchange.newEvents).sum ≤ k * settings.rateLimitEvents := by
    intro k hk
    refine (sum_newEvents_le fun x hx => ?_).trans (Nat.mul_le_mul_left k hanswered)
    refine (newEvents_le hsends x (List.mem_of_mem_filter hx)).trans ?_
    split
    · exact hk x hx
    · exact le_rfl
  exact ⟨hanswered, hevents 100 fun x _ => x.submission.size_le, hevents⟩

def oneWrite : Settings := { rateLimitEvents := 1 }

def pair : EventBatchCreate where
  events := [{ eventId := 1, sessionId := "s1", eventType := .view },
    { eventId := 2, sessionId := "s1", eventType := .search }]
  minLength := by decide
  maxLength := by decide

theorem exists_pair : ∃ x : Exchange, Sends (.ofTable [] []) oneWrite "u1" ZSet.empty 0 [x] ∧
    x.now = 5000 ∧ x.newEvents = 2 := by
  let request : Request := ⟨some "10.0.0.1", none, none, "u1"⟩
  obtain ⟨r, w', hrun, htest⟩ := exists_solo_of_run (M := backend) (π := .any) (i := 0)
    (List.replicate 15 .ok) (World.init 5000)
    ((Submission.batch pair).run (.ofTable [] []) oneWrite request)
    (fun r _ => decide (countNew r = 2)) (by decide +kernel)
  let x : Exchange := ⟨request, .batch pair, World.init 5000, r, w'⟩
  have hsends : Sends (.ofTable [] []) oneWrite "u1" (x.before.limiter (eventsKey "u1")) 0 [x] :=
    .cons rfl (Nat.zero_le _) hrun .nil
  exact ⟨x, hsends, rfl, of_decide_eq_true htest⟩

/-- One write a minute, and two events in the first of them. -/
theorem events_over_quota :
    ¬ ∀ xs, Sends (.ofTable [] []) oneWrite "u1" ZSet.empty 0 xs →
      (xs.map Exchange.member).Nodup → ∀ t,
        ((xs.filter fun x => decide (t ≤ x.now ∧
          x.now < t + oneWrite.rateLimitWindowSeconds * 1000)).map Exchange.newEvents).sum ≤
          oneWrite.rateLimitEvents := by
  intro h
  obtain ⟨x, hsends, hnow, hnew⟩ := exists_pair
  have hsum := h [x] hsends (List.nodup_singleton _) 5000
  rw [List.filter_cons_of_pos (by rw [hnow]; decide), List.filter_nil, List.map_singleton,
    List.sum_singleton, hnew] at hsum
  exact absurd hsum (by decide)

/-- The requests of a user at their times, with nothing between them and no failure. -/
def sendAll (py : Python) (settings : Settings) (request : Request) :
    World → List (Nat × Submission) → Option (List Exchange)
  | _, [] => some []
  | w, (now, submission) :: rest => do
    let before := { w with clock := now }
    let (answer, after) ← backend.solo .any 0 (List.replicate 15 .ok) before
      (submission.run py settings request)
    let xs ← sendAll py settings request after rest
    pure (⟨request, submission, before, answer, after⟩ :: xs)

theorem sends_sendAll {py : Python} {settings : Settings} {request : Request} {w : World}
    {t : Nat} {sent : List (Nat × Submission)} {xs : List Exchange}
    (hsent : sendAll py settings request w sent = some xs)
    (htimes : (t :: sent.map Prod.fst).IsChain (· ≤ ·)) :
    Sends py settings request.userId (w.limiter (eventsKey request.userId)) t xs := by
  induction sent generalizing w t xs with
  | nil =>
      cases hsent
      exact .nil
  | cons head rest ih =>
      obtain ⟨now, submission⟩ := head
      simp only [sendAll, Option.bind_eq_bind, Option.bind_eq_some_iff] at hsent
      obtain ⟨⟨answer, after⟩, hrun, xs, hrest, hpure⟩ := hsent
      cases hpure
      obtain ⟨htime, hlater⟩ := List.isChain_cons_cons.mp htimes
      let x : Exchange := ⟨request, submission, { w with clock := now }, answer, after⟩
      exact .cons (x := x) rfl htime (solo_of_run _ hrun) (ih hrest hlater)

def twoWrites : Settings := { rateLimitEvents := 2 }

/-- A batch and a single event are answered, and a third request is refused. -/
theorem event_writes_bounded_mixed :
    ∃ xs, Sends (.ofTable [] []) twoWrites "u1" ZSet.empty 0 xs ∧
      xs.map (fun x => (x.now, x.answer.isOk, x.newEvents)) =
        [(5000, true, 2), (6000, true, 1), (7000, false, 0)] ∧
      let during := xs.filter fun x =>
        decide (5000 ≤ x.now ∧ x.now < 5000 + twoWrites.rateLimitWindowSeconds * 1000)
      (during.countP fun x => x.answer.isOk) ≤ twoWrites.rateLimitEvents ∧
        (during.map Exchange.newEvents).sum ≤ 100 * twoWrites.rateLimitEvents := by
  have hrun : (sendAll (.ofTable [] []) twoWrites ⟨some "10.0.0.1", none, none, "u1"⟩
      (World.init 0) [(5000, .batch pair),
        (6000, .single { eventId := 3, sessionId := "s1", eventType := .view }),
        (7000, .single { eventId := 4, sessionId := "s1", eventType := .view })]).any
      (fun xs => decide (xs.map (fun x => (x.now, x.answer.isOk, x.newEvents)) =
        [(5000, true, 2), (6000, true, 1), (7000, false, 0)])) = true := by
    decide +kernel
  obtain ⟨xs, hsent, htest⟩ := (Option.any_eq_true _ _).mp hrun
  have hanswers := of_decide_eq_true htest
  have hsends := sends_sendAll (t := 0) hsent (by decide)
  have htimes : xs.map Exchange.now = [5000, 6000, 7000] := by
    have hfirst := congrArg (List.map Prod.fst) hanswers
    rwa [List.map_map] at hfirst
  have hdistinct : (xs.map Exchange.member).Nodup := by
    refine .of_map (fun m => (ofLex m).1) ?_
    rw [List.map_map]
    exact htimes ▸ (by decide : [5000, 6000, 7000].Nodup)
  have hbounded := event_writes_bounded (by decide) hsends hdistinct 5000
  exact ⟨xs, hsends, hanswers, hbounded.1, hbounded.2.1⟩

end EventAnalytics.Api
