import EventAnalytics.Api.Winner
import EventAnalytics.Library.Relays
import EventAnalytics.Workers.Pass

/-! What the requests and the passes issue, command by command. -/
namespace EventAnalytics.Api

open Library Services Redis

/-- Commands that add no row and no entry, and count no stream. -/
def routine : Cmd → Bool
  | .insertEvent .. | .xadd _ | .xlen | .xlenDlq | .xinfoGroups => false
  | _ => true

/-- The commands of a request, but for the rows and entries that it adds. -/
def requested : Cmd → Bool
  | .now | .uuid4 | .setNx .. | .setXx .. | .selectEvent _ | .evalSlidingWindow .. | .commit
  | .rollback => true
  | _ => false

theorem routine_of_requested {c : Cmd} (hc : requested c = true) : routine c = true := by
  cases c <;> first | rfl | cases hc

def Task.posts : Task → List (EventCreate × Option String × Option String)
  | .single request body => [(body, some (clientIp request), request.userAgent)]
  | .batch request events =>
    events.map fun item => (item, some (clientIp request), request.userAgent)
  | .pass => []

/-- What a reader of the stream is handed has been added to it. -/
def hands (S : Entry → Prop) : (c : Cmd) → Except Exn c.Resp → Prop
  | .xreadgroup _ _, .ok entries => ∀ entry ∈ entries, S entry.2
  | .xautoclaim _ _ _, .ok entries => ∀ entry ∈ entries, S entry.2
  | _, _ => True

/-- Every row that the worker makes of the payload may be inserted. -/
def Yields (py : Python) (N : Cmd → Prop) (payload : Json) : Prop :=
  ∀ data make, payload = .obj data → Workers.decodeEvent py data = .ok (.row make) →
    ∀ serverTs origin, N (.insertEvent (make serverTs) origin)

section Programs

variable {py : Python} {settings : Settings} {N : Cmd → Prop} {S : Entry → Prop}

theorem issues_ingestAll {request : Request} {events : List EventCreate}
    (hitems : ∀ item ∈ events,
      (ingestOne py settings item (some (clientIp request)) request.userAgent).Issues N)
    (acc : EventBatchResult) : (ingestAll py settings request events acc).Issues N := by
  induction events generalizing acc with
  | nil => trivial
  | cons item events ih =>
      unfold ingestAll
      apply Prog.Issues.bind (hitems item List.mem_cons_self)
      exact fun r => ih (fun other hother => hitems other (List.mem_cons_of_mem _ hother)) _

theorem issues_ingestOne {payload : EventCreate} {ip userAgent : Option String}
    (hnow : N .now) (hclaim : ∀ ttl, N (.setNx payload.eventId ttl))
    (hlook : N (.selectEvent payload.eventId)) (hmark : ∀ ttl, N (.setXx payload.eventId ttl))
    (hrow : ∀ serverTs, N (.insertEvent (syncRow py payload ip userAgent serverTs) .request))
    (hentry : N (.xadd (py.dumps (asyncPayload py payload ip userAgent)))) :
    (ingestOne py settings payload ip userAgent).Issues N := by
  unfold ingestOne claimIdempotency alreadyInDb
  refine Prog.Issues.bind (Prog.issues_perform (hclaim _)) fun claimed => ?_
  cases claimed with
  | false =>
      refine Prog.Issues.bind (Prog.issues_perform hlook) fun found => ?_
      cases found <;> trivial
  | true =>
      simp only [Bool.not_true, Bool.false_eq_true, if_false]
      split
      · exact Prog.Issues.bind (Prog.issues_perform hentry) fun _ => trivial
      · unfold ingestSync markDone
        refine Prog.Issues.bind (Prog.issues_perform hnow) fun serverTs => ?_
        refine Prog.Issues.bind (Prog.issues_perform (hrow serverTs)) fun inserted => ?_
        refine Prog.Issues.bind (Prog.issues_perform (hmark _)) fun _ => ?_
        cases inserted <;> trivial

theorem issues_withSession (hrollback : N .rollback) {α : Type} {body : App α}
    (h : body.Issues N) : (Db.withSession (await .rollback) body).Issues N := by
  unfold Db.withSession
  refine Prog.Issues.bind (Prog.Issues.tryExcept h fun exc => ?_) fun a => ?_
  · exact Prog.Issues.bind (Prog.issues_perform hrollback) fun _ => trivial
  · exact Prog.Issues.bind (Prog.issues_perform hrollback) fun _ => trivial

section Requests

variable (hrequested : ∀ c, requested c = true → N c)
include hrequested

theorem issues_limited {α : Type} {handler : App α} (request : Request)
    (h : handler.Issues N) :
    (getDb do
      let _ ← Core.enforceRateLimit settings request.clientHost (some request.userId) true
      handler : App α).Issues N := by
  apply issues_withSession (hrequested _ rfl)
  refine Prog.Issues.bind (Prog.Issues.bind ?_ fun _ => h) fun a =>
    Prog.Issues.bind (Prog.issues_perform (hrequested _ rfl)) fun _ => trivial
  exact Core.issues_enforceRateLimit (hrequested _ rfl) (hrequested _ rfl)
    (fun _ _ _ _ _ => hrequested _ rfl) _ _ _ _

theorem issues_request {task : Task}
    (hposts : ∀ post ∈ task.posts,
      (∀ serverTs, N (.insertEvent (syncRow py post.1 post.2.1 post.2.2 serverTs) .request)) ∧
        N (.xadd (py.dumps (asyncPayload py post.1 post.2.1 post.2.2))))
    (htask : task ≠ .pass) : (task.run py settings).Issues N := by
  have hingest : ∀ post ∈ task.posts,
      (ingestOne py settings post.1 post.2.1 post.2.2).Issues N := fun post hpost =>
    issues_ingestOne (hrequested _ rfl) (fun _ => hrequested _ rfl) (hrequested _ rfl)
      (fun _ => hrequested _ rfl) (hposts post hpost).1 (hposts post hpost).2
  cases task with
  | pass => exact absurd rfl htask
  | single request body =>
      refine Prog.Issues.bind (issues_limited hrequested request ?_) fun _ => trivial
      exact Prog.Issues.bind (hingest _ (List.mem_singleton_self _)) fun _ => trivial
  | batch request events =>
      refine Prog.Issues.bind (issues_limited hrequested request ?_) fun _ => trivial
      exact issues_ingestAll (fun item hitem => hingest _ (List.mem_map_of_mem hitem)) _

end Requests

variable (hroutine : ∀ c, routine c = true → N c)
include hroutine

theorem issues_deadLetterIfDue (id : Nat) (data : Dict) (n : Nat) (reason : String)
    (acc : Workers.Progress) :
    (Workers.deadLetterIfDue py settings id data n reason acc).Issues N := by
  unfold Workers.deadLetterIfDue Mq.deadLetter
  split
  · refine Prog.Issues.bind ?_ fun _ => trivial
    refine Prog.Issues.bind (Prog.issues_perform (hroutine _ rfl)) fun _ => ?_
    refine Prog.Issues.bind (Prog.issues_perform (hroutine _ rfl)) fun _ => ?_
    exact Prog.Issues.tryExcept (Prog.issues_perform (hroutine _ rfl)) fun _ => trivial
  · trivial

theorem issues_persistRow {make : Nat → EventRow} (origin : Origin)
    (hrow : ∀ serverTs, N (.insertEvent (make serverTs) origin)) :
    (Workers.persistRow settings origin make).Issues N := by
  unfold Workers.persistRow
  refine Prog.Issues.bind (Prog.issues_perform (hroutine _ rfl)) fun serverTs => ?_
  refine Prog.Issues.bind (Prog.issues_perform (hrow serverTs)) fun inserted => ?_
  refine Prog.Issues.bind ?_ fun _ =>
    Prog.Issues.bind (Prog.issues_perform (hroutine _ rfl)) fun _ => trivial
  unfold Workers.countUser
  split
  · refine Prog.Issues.bind (Prog.issues_perform (hroutine _ rfl)) fun _ => ?_
    exact Prog.Issues.bind (Prog.issues_perform (hroutine _ rfl)) fun _ =>
      Prog.issues_perform (hroutine _ rfl)
  · trivial

theorem issues_handleMessage {data : Dict} (hyields : Yields py N (.obj data)) (id n : Nat)
    (acc : Workers.Progress) :
    (Workers.handleMessage py settings id data n acc).Issues N := by
  unfold Workers.handleMessage Workers.persistEvent
  refine Prog.Issues.bind ?_ fun persisted => ?_
  · cases hdecode : Workers.decodeEvent py data with
    | error exc => trivial
    | ok decoded =>
        cases decoded with
        | invalid => trivial
        | row make =>
            exact issues_persistRow hroutine _ fun serverTs =>
              hyields data make rfl hdecode serverTs _
  · cases persisted with
    | invalid => exact issues_deadLetterIfDue hroutine _ _ _ _ _
    | inserted => trivial
    | conflict => trivial

theorem issues_processMessages {work : List (Nat × Json × Nat)}
    (hwork : ∀ message ∈ work, Yields py N message.2.1) (acc : Workers.Progress) :
    (Workers.processMessages py settings work acc).Issues N := by
  induction work generalizing acc with
  | nil => trivial
  | cons message work ih =>
      unfold Workers.processMessages
      refine Prog.Issues.bind ?_ fun acc =>
        ih (fun other hother => hwork other (List.mem_cons_of_mem _ hother)) acc
      have hmessage := hwork message List.mem_cons_self
      obtain ⟨id, payload, n⟩ := message
      cases payload with
      | obj data =>
          unfold Workers.processMessage
          dsimp only
          split
          · exact issues_deadLetterIfDue hroutine _ _ _ _ _
          · exact Prog.Issues.tryExcept (issues_handleMessage hroutine hmessage _ _ _) fun exc =>
              issues_deadLetterIfDue hroutine _ _ _ _ _
      | _ => trivial

omit hroutine in
theorem relays_parseEntries {entries : List (Nat × Entry)}
    (hS : ∀ fields payload, S fields → Mq.parseFields py fields = .ok payload →
      Yields py N payload) (hentries : ∀ entry ∈ entries, S entry.2) :
    (Prog.ofExcept (Mq.parseEntries py entries) : App _).Relays (hands S) N
      fun messages => ∀ message ∈ messages, Yields py N message.2 := by
  refine Prog.relays_ofExcept fun messages hparse message hmessage => ?_
  obtain ⟨fields, hfields, hpayload⟩ := Workers.mem_parseEntries hparse hmessage
  exact hS fields _ (hentries _ hfields) hpayload

variable (hS : ∀ fields payload, S fields → Mq.parseFields py fields = .ok payload →
  Yields py N payload)
include hS

theorem relays_readEventsBatch (count : Nat) :
    (Mq.readEventsBatch py settings count).Relays (hands S) N
      fun messages => ∀ message ∈ messages, Yields py N message.2 := by
  refine Prog.Relays.bind (R := fun entries => ∀ entry ∈ entries, S entry.2) ?_
    fun _ hentries => relays_parseEntries hS hentries
  unfold Mq.xreadgroup
  split
  · trivial
  · exact Prog.relays_perform (hroutine _ rfl)

theorem relays_reclaimStaleMessages (count : Nat) :
    (Mq.reclaimStaleMessages py settings count).Relays (hands S) N
      fun messages => ∀ message ∈ messages, Yields py N message.2.1 := by
  unfold Mq.reclaimStaleMessages
  refine Prog.Relays.bind (R := fun claimed => ∀ entries, claimed = some entries →
    ∀ entry ∈ entries, S entry.2) (Prog.Relays.tryExcept ?_ fun exc => ?_)
    fun claimed hclaimed => ?_
  · rw [Prog.map_eq]
    refine Prog.Relays.bind (Prog.relays_perform (hroutine _ rfl)) fun entries hentries => ?_
    rintro _ ⟨⟩
    exact hentries
  · intro entries h
    cases h
  · cases claimed with
    | none => exact fun message hmessage => absurd hmessage List.not_mem_nil
    | some entries =>
        refine Prog.Relays.bind (R := fun _ => True) ?_ fun counts _ => ?_
        · exact Prog.Issues.relays (Prog.Issues.tryExcept (Prog.issues_perform (hroutine _ rfl))
            fun _ => trivial) fun _ => trivial
        · refine Prog.Relays.bind (relays_parseEntries hS (hclaimed entries rfl))
            fun messages hmessages => ?_
          intro message hmessage
          obtain ⟨parsed, hparsed, rfl⟩ := List.mem_map.mp hmessage
          exact hmessages parsed hparsed

omit hS in
theorem issues_persistWork (settings : Settings) {work : List (Nat × Json × Nat)}
    (hwork : ∀ message ∈ work, Yields py N message.2.1) :
    (Db.withSession (await .rollback) do
        let acc ← Workers.processMessages py settings work {}
        await .commit
        pure acc : App Workers.Progress).Issues N ∧
      ∀ ids, (Mq.ackMessages ids).Issues N := by
  refine ⟨issues_withSession (hroutine _ rfl) ?_, fun ids => ?_⟩
  · exact Prog.Issues.bind (issues_processMessages hroutine hwork _) fun acc =>
      Prog.Issues.bind (Prog.issues_perform (hroutine _ rfl)) fun _ => trivial
  · unfold Mq.ackMessages
    split
    · trivial
    · exact Prog.issues_perform (hroutine _ rfl)

theorem relays_processEventStream (hstats : (Mq.streamStats).Issues N) :
    (Workers.processEventStream py settings).Relays (hands S) N fun _ => True := by
  unfold Workers.processEventStream
  refine Prog.Relays.bind (relays_readEventsBatch hroutine hS _) fun fresh hfresh => ?_
  refine Prog.Relays.bind (relays_reclaimStaleMessages hroutine hS _)
    fun reclaimed hreclaimed => ?_
  apply Prog.Issues.relays _ fun _ => trivial
  have hwork : ∀ message ∈ fresh.map (fun md => (md.1, md.2, 1)) ++ reclaimed,
      Yields py N message.2.1 := by
    intro message hmessage
    rcases List.mem_append.mp hmessage with hmem | hmem
    · obtain ⟨md, hmd, rfl⟩ := List.mem_map.mp hmem
      exact hfresh md hmd
    · exact hreclaimed message hmem
  obtain ⟨hsession, hack⟩ := issues_persistWork hroutine settings hwork
  dsimp only
  split
  · exact Prog.Issues.bind hstats fun _ => trivial
  · exact Prog.Issues.bind hsession fun acc => Prog.Issues.bind (hack _) fun _ =>
      Prog.Issues.bind hstats fun _ => trivial

theorem relays_pass (hstats : N .xlen ∧ N .xlenDlq ∧ N .xinfoGroups) :
    (Task.pass.run py settings).Relays (hands S) N fun _ => True := by
  refine Prog.Relays.bind (relays_processEventStream hroutine hS ?_) fun _ _ => trivial
  unfold Mq.streamStats
  refine Prog.Issues.bind (Prog.issues_perform hstats.1) fun _ => ?_
  refine Prog.Issues.bind (Prog.Issues.tryExcept (Prog.issues_perform hstats.2.1)
    fun _ => trivial) fun _ => ?_
  exact Prog.Issues.bind (Prog.Issues.tryExcept (Prog.issues_perform hstats.2.2)
    fun _ => trivial) fun _ => trivial

end Programs

end EventAnalytics.Api
