import EventAnalytics.Api.Events
import EventAnalytics.Services.Replay

/-! What a failed batch in sync mode leaves behind. The rows belong to the
transaction of the request and vanish with it; the keys are in Redis and stay. -/
namespace EventAnalytics.Api

open Library Library.Discipline Services

/-- Any `INSERT` may raise, and so may the commit, which then has not happened. -/
def databaseFaults : BackendPolicy where
  step _ ch _ c :=
    match c with
    | .insertEvent .. => true
    | .commit => ch ≠ .raiseAfter
    | _ => ch = .ok
  crash := fun _ _ _ => false
  env := fun _ _ => false

def ingestBatch (py : Python) (settings : Settings) (request : Request)
    (batch : List EventCreate) : App EventBatchResult :=
  getDb (ingestAll py settings request batch ⟨[], 0, 0⟩)

structure NoTrace (batch : List EventCreate) (w w' : World) : Prop where
  events : w'.events = w.events
  keys : ∀ item ∈ batch, w'.hasKey item.eventId = w.hasKey item.eventId

/-- Sent once more, and meeting no fault, the batch ends up stored. -/
def Resubmittable (py : Python) (settings : Settings) (request : Request)
    (batch : List EventCreate) (i : Nat) (w : World) : Prop :=
  ∀ r w', Solo backend noFaults i w (ingestBatch py settings request batch) r w' →
    ∀ item ∈ batch, w'.stored item.eventId = true

/-- What no step of a request before its commit undoes. -/
structure Kept (w w' : World) : Prop where
  events : w'.events = w.events
  keys : ∀ e, w.hasKey e = true → w'.hasKey e = true

theorem Kept.refl (w : World) : Kept w w := ⟨rfl, fun _ he => he⟩

theorem Kept.trans {a b c : World} (hab : Kept a b) (hbc : Kept b c) : Kept a c :=
  ⟨hbc.events.trans hab.events, fun e he => hbc.keys e (hab.keys e he)⟩

section Sync

variable {py : Python} {settings : Settings} {request : Request} {i : Nat} {w : World}

theorem kept_exec {ch : Choice} {w' : World} {c : Cmd} {r : Except Exn c.Resp}
    (hcommit : c ≠ .commit) (hexec : backend.exec i ch w c = some (r, w')) : Kept w w' :=
  ⟨exec_events hcommit hexec, fun _ he => exec_hasKey he hexec⟩

/-- Where a request stands once event `e` has its key. -/
structure Keyed (i : Nat) (e : UUID) (w w' : World) : Prop extends Kept w w' where
  aborted : w'.aborted i = false
  key : w'.hasKey e = true

theorem wp_keyed {w₀ : World} {e : UUID} (hw : Keyed i e w₀ w) {c : Cmd} (hcommit : c ≠ .commit)
    (haborted : ∀ ch a w', backend.exec i ch w c = some (.ok a, w') → w'.aborted i = w.aborted i) :
    (alone backend databaseFaults i).wp i (await c)
      (ends (fun _ => Keyed i e w₀) fun _ w' => Kept w₀ w' ∧ w'.hasKey e = true) w := by
  have hstep : ∀ ch r w', backend.exec i ch w c = some (r, w') →
      Kept w₀ w' ∧ w'.hasKey e = true := by
    intro ch r w' hexec
    have hkept := kept_exec hcommit hexec
    exact ⟨hw.toKept.trans hkept, hkept.keys e hw.key⟩
  refine wp_alone (fun ch a w' _ hexec => ?_) fun ch _ w' _ hexec => hstep ch _ w' hexec
  obtain ⟨hkept, hkey⟩ := hstep ch _ w' hexec
  exact ⟨hkept, (haborted ch a w' hexec).trans hw.aborted, hkey⟩

theorem wp_ingestSync {w₀ : World} {payload : EventCreate} (hw : Keyed i payload.eventId w₀ w)
    (ip userAgent : Option String) :
    (alone backend databaseFaults i).wp i (ingestSync py settings payload ip userAgent)
      (ends (fun _ => Keyed i payload.eventId w₀)
        fun _ w' => Kept w₀ w' ∧ w'.hasKey payload.eventId = true) w := by
  unfold ingestSync markDone
  refine wp_seq (wp_keyed hw (by simp) fun ch a w' hexec => ?_) fun serverTs w₁ hw₁ => ?_
  · rw [(exec_quiet rfl hexec).aborted]
  refine wp_seq (wp_keyed hw₁ (by simp) fun ch a w' hexec => ?_) fun inserted w₂ hw₂ => ?_
  · rcases exec_insertEvent hexec with ⟨-, -, -, -, -, -, rfl⟩ | ⟨-, -, -, -, rfl⟩ | ⟨hr, -⟩ |
      ⟨hr, -⟩
    · rfl
    · rfl
    · cases hr
    · cases hr
  refine wp_seq (wp_keyed hw₂ (by simp) fun ch a w' hexec => ?_) fun _ w₃ hw₃ => ?_
  · rw [(exec_quiet rfl hexec).aborted]
  · cases inserted <;> exact hw₃

/-- One event of the batch. Only an event without a key gets as far as the
database, and from then on it has a key. -/
theorem wp_ingestOne (hsync : settings.isAsyncIngest = false) (haborted : w.aborted i = false)
    (payload : EventCreate) (ip userAgent : Option String) :
    (alone backend databaseFaults i).wp i (ingestOne py settings payload ip userAgent)
      (ends
        (fun _ w' => Keyed i payload.eventId w w' ∧ 0 < settings.idemTtlSeconds ∧
          (w.hasKey payload.eventId = true → w' = w))
        (fun exc w' => exc = .dbApiError → Kept w w' ∧ w.hasKey payload.eventId = false ∧
          w'.hasKey payload.eventId = true)) w := by
  unfold ingestOne claimIdempotency alreadyInDb
  refine wp_seq
    (S := fun claimed w' => 0 < settings.idemTtlSeconds ∧ Keyed i payload.eventId w w' ∧
      (claimed = false → w' = w) ∧ w.hasKey payload.eventId = !claimed)
    (wp_alone ?_ ?_) ?_
  · intro ch a w' _ hexec
    have hkept : Kept w w' := kept_exec (by simp) hexec
    have hsame : w'.aborted i = false := by rw [(exec_quiet rfl hexec).aborted, haborted]
    rcases exec_setNx hexec with ⟨ha, hkey, httl, rfl⟩ | ⟨ha, hkey, httl, rfl⟩ | ⟨exc, ha, -⟩ |
      ⟨exc, ha, -⟩
    · cases ha
      exact ⟨httl, ⟨hkept, hsame, hkey⟩, fun _ => rfl, hkey⟩
    · cases ha
      exact ⟨httl, ⟨hkept, hsame, World.hasKey_setKey_self httl⟩, by simp, hkey⟩
    · cases ha
    · cases ha
  · intro ch e w' hadm hexec he
    subst he
    cases of_decide_eq_true hadm
    simp only [backend, effect] at hexec
    split at hexec
    · cases hexec
    · split at hexec <;> cases hexec
  rintro claimed w' ⟨httl, hkeyed, hsame, hkey⟩
  cases claimed with
  | false =>
      cases hsame rfl
      simp only [Bool.not_false, if_true]
      refine wp_seq (S := fun _ v => v = w) (wp_alone ?_ ?_) fun found v hv => ?_
      · intro ch a v hadm hexec
        rcases exec_selectEvent hexec with rfl | ⟨-, exc, hr⟩
        · rfl
        · cases hr
      · intro ch e v hadm hexec
        cases of_decide_eq_true hadm
        simp [backend, effect, haborted] at hexec
      · subst hv
        cases found <;> exact ⟨hkeyed, httl, fun _ => rfl⟩
  | true =>
      simp only [Bool.not_true, Bool.false_eq_true, if_false, hsync]
      refine wp_ends_mono (fun _ v hv => ⟨hv, httl, fun h => ?_⟩)
        (fun _ v hv _ => ⟨hv.1, hkey, hv.2⟩) (wp_ingestSync hkeyed ip userAgent)
      simp [hkey] at h

/-- The loop over a batch, by induction on the events that are left: the first
event without a key leaves one. -/
theorem wp_ingestAll (hsync : settings.isAsyncIngest = false) (haborted : w.aborted i = false)
    (batch : List EventCreate) (acc : EventBatchResult) :
    (alone backend databaseFaults i).wp i (ingestAll py settings request batch acc)
      (ends
        (fun _ w' => Kept w w' ∧ w'.aborted i = false ∧
          (∀ item ∈ batch, w'.hasKey item.eventId = true ∧ 0 < settings.idemTtlSeconds) ∧
          ((∀ item ∈ batch, w.hasKey item.eventId = true) → w' = w))
        (fun exc w' => exc = .dbApiError → Kept w w' ∧
          ∃ item ∈ batch, w.hasKey item.eventId = false ∧ w'.hasKey item.eventId = true)) w := by
  induction batch generalizing w acc with
  | nil => exact ⟨.refl w, haborted, by simp, fun _ => rfl⟩
  | cons item batch ih =>
      unfold ingestAll
      refine wp_seq (wp_ends_mono (fun _ _ hw => hw) ?_
        (wp_ingestOne hsync haborted item (some (clientIp request)) request.userAgent)) ?_
      · intro exc w' hw' hexc
        obtain ⟨hkept, hkey, hkey'⟩ := hw' hexc
        exact ⟨hkept, item, List.mem_cons_self, hkey, hkey'⟩
      · rintro r w₁ ⟨hkeyed₁, httl, hsame₁⟩
        have hkept₁ := hkeyed₁.toKept
        refine wp_ends_mono ?_ ?_ (ih hkeyed₁.aborted _)
        · rintro _ w₂ ⟨hkept₂, haborted₂, hkeys₂, hsame₂⟩
          refine ⟨hkept₁.trans hkept₂, haborted₂, fun item' hitem' => ?_, fun hall => ?_⟩
          · rcases List.mem_cons.mp hitem' with rfl | hitem'
            · exact ⟨hkept₂.keys _ hkeyed₁.key, httl⟩
            · exact hkeys₂ item' hitem'
          · have heq := hsame₁ (hall item List.mem_cons_self)
            subst heq
            exact hsame₂ fun item' hitem' => hall item' (List.mem_cons_of_mem _ hitem')
        · intro exc w₂ hw₂ hexc
          obtain ⟨hkept₂, item', hitem', hkey', hkey''⟩ := hw₂ hexc
          refine ⟨hkept₁.trans hkept₂, item', List.mem_cons_of_mem _ hitem', ?_, hkey''⟩
          by_contra hhad
          simp [hkept₁.keys _ (by simpa using hhad)] at hkey'

/-- What a database error leaves of a request: no row, and a key for some event
that had none, unless every event had one. -/
structure Failed (settings : Settings) (batch : List EventCreate) (w w' : World) : Prop where
  events : w'.events = w.events
  traced : (∃ item ∈ batch, w.hasKey item.eventId = false) →
    ∃ item ∈ batch, w.hasKey item.eventId = false ∧ w'.hasKey item.eventId = true
  untraced : (∀ item ∈ batch, w.hasKey item.eventId = true) →
    ∀ item ∈ batch, w'.hasKey item.eventId = true ∧ 0 < settings.idemTtlSeconds

structure Unmoved (i : Nat) (w w' : World) : Prop where
  events : w'.events = w.events
  keys : ∀ e, w'.hasKey e = w.hasKey e
  aborted : w'.aborted i = w.aborted i

theorem wp_limiterCommand {w₀ : World} (hw : Unmoved i w₀ w) {c : Cmd} (hquiet : c.quiet = true)
    (hkeyed : c.keyed = false)
    (hpolicy : ∀ ch w, databaseFaults.step i ch w c = decide (ch = .ok))
    (heffect : ∀ w, ∃ a w', effect i w c = some (.ok a, w')) :
    (alone backend databaseFaults i).wp i (await c)
      (ends (fun _ => Unmoved i w₀) fun exc _ => exc ≠ .dbApiError) w := by
  refine wp_alone (fun ch a w' _ hexec => ?_) fun ch e w' hadm hexec => ?_
  · have hkeys := exec_keys hkeyed hexec
    have hsame := exec_quiet hquiet hexec
    exact ⟨hsame.events.trans hw.events,
      fun e => (World.hasKey_congr hkeys.1 hkeys.2 e).trans (hw.keys e),
      (congrFun hsame.aborted i).trans hw.aborted⟩
  · rw [hpolicy] at hadm
    cases of_decide_eq_true hadm
    obtain ⟨a, w₁, heff⟩ := heffect w
    cases heff.symm.trans hexec

theorem wp_enforceScope {w₀ : World} (hw : Unmoved i w₀ w) (key scope title : String)
    (limit window : Nat) :
    (alone backend databaseFaults i).wp i (Core.enforceScope key scope title limit window)
      (ends (fun _ => Unmoved i w₀) fun exc _ => exc ≠ .dbApiError) w := by
  unfold Core.enforceScope Core.slidingWindowCall
  refine wp_seq (S := fun _ => Unmoved i w₀) ?_ fun reply w hw => ?_
  · refine wp_seq (wp_limiterCommand hw rfl rfl (fun _ _ => rfl) fun _ => ⟨_, _, rfl⟩)
      fun nowMs w hw => ?_
    refine wp_seq (wp_limiterCommand hw rfl rfl (fun _ _ => rfl) fun _ => ⟨_, _, rfl⟩)
      fun random w hw => ?_
    exact wp_limiterCommand hw rfl rfl (fun _ _ => rfl) fun _ => ⟨_, _, rfl⟩
  · split
    · simp [ends, Core.rateLimitError]
    · exact hw

theorem wp_enforceRateLimit {w₀ : World} (hw : Unmoved i w₀ w) (clientHost userId : Option String)
    (eventWrite : Bool) :
    (alone backend databaseFaults i).wp i
      (Core.enforceRateLimit settings clientHost userId eventWrite)
      (ends (fun _ => Unmoved i w₀) fun exc _ => exc ≠ .dbApiError) w := by
  unfold Core.enforceRateLimit
  apply wp_seq (wp_enforceScope hw _ _ _ _ _)
  intro ip w hw
  refine wp_seq (S := fun _ => Unmoved i w₀) ?_ fun perUser w hw => ?_
  · unfold Core.enforceUser
    split
    · exact wp_enforceScope hw _ _ _ _ _
    · exact hw
  refine wp_seq (S := fun _ => Unmoved i w₀) ?_ fun events w hw => hw
  unfold Core.enforceEvents
  split
  · exact wp_enforceScope hw _ _ _ _ _
  · exact hw

theorem wp_limitedBatch (hsync : settings.isAsyncIngest = false) (haborted : w.aborted i = false)
    (batch : List EventCreate) :
    (alone backend databaseFaults i).wp i
      (do
        let _ ← Core.enforceRateLimit settings request.clientHost (some request.userId) true
        ingestAll py settings request batch ⟨[], 0, 0⟩)
      (ends
        (fun _ w' => w'.events = w.events ∧ ∀ item ∈ batch,
          w'.hasKey item.eventId = true ∧ 0 < settings.idemTtlSeconds)
        (fun exc w' => exc = .dbApiError → w'.events = w.events ∧
          ∃ item ∈ batch, w.hasKey item.eventId = false ∧ w'.hasKey item.eventId = true)) w := by
  refine wp_seq (wp_ends_mono (fun _ _ hw => hw) (fun _ _ hne hexc => absurd hexc hne)
    (wp_enforceRateLimit ⟨rfl, fun _ => rfl, rfl⟩ _ _ _)) fun _ w₁ hmoved => ?_
  refine wp_ends_mono ?_ ?_ (wp_ingestAll hsync (hmoved.aborted.trans haborted) batch _)
  · rintro _ w₂ ⟨hkept, -, hkeys, -⟩
    exact ⟨hkept.events.trans hmoved.events, hkeys⟩
  · intro exc w₂ hw₂ hexc
    obtain ⟨hkept, item, hitem, hkey, hkey'⟩ := hw₂ hexc
    exact ⟨hkept.events.trans hmoved.events, item, hitem, by rwa [← hmoved.keys], hkey'⟩

theorem Failed.rollback {batch : List EventCreate} {w₀ : World}
    (h : Failed settings batch w₀ w) : Failed settings batch w₀ (w.rollbackTx i) :=
  ⟨h.events, h.traced, h.untraced⟩

/-- A request that ends in a database error has failed in an `INSERT`, behind its
first claim, or in the commit, behind all of them. -/
theorem wp_createEventsBatch (hsync : settings.isAsyncIngest = false)
    (haborted : w.aborted i = false) (batch : List EventCreate) :
    (alone backend databaseFaults i).wp i (createEventsBatch py settings request batch)
      (ends (fun _ _ => True)
        fun exc w' => exc = .dbApiError →
          Failed settings batch w w' ∧ w'.aborted i = false ∧ w'.ownRows i = []) w := by
  have hrollback : ∀ {w : World} ch (e : Exn) w', databaseFaults.step i ch w .rollback = true →
      backend.exec i ch w .rollback = some (.error e, w') → False := by
    intro w ch e w' hadm hexec
    cases of_decide_eq_true hadm
    cases hexec
  unfold createEventsBatch getDb Db.getDb Db.withSession
  refine wp_seq (S := fun _ _ => True)
    (wp_try (F := fun exc w' => exc = .dbApiError → Failed settings batch w w') ?_ ?_) ?_
  · refine wp_seq (wp_ends_mono (fun _ _ hw => hw) ?_ (wp_limitedBatch hsync haborted batch)) ?_
    · intro exc w' hw' hexc
      obtain ⟨hevents, item, hitem, hkey, hkey'⟩ := hw' hexc
      refine ⟨hevents, fun _ => ⟨item, hitem, hkey, hkey'⟩, fun hall => ?_⟩
      simp [hall item hitem] at hkey
    · rintro r w₁ ⟨hevents, hkeys⟩
      refine wp_seq (S := fun _ _ => True) (wp_alone (fun _ _ _ _ _ => trivial) ?_)
        fun _ _ _ => trivial
      intro ch e w' hadm hexec _
      cases ch with
      | ok => cases hexec
      | raiseBefore =>
          cases hexec
          exact ⟨hevents, fun ⟨item, hitem, hkey⟩ => ⟨item, hitem, hkey, (hkeys item hitem).1⟩,
            fun _ => hkeys⟩
      | raiseAfter => simp [databaseFaults] at hadm
  · intro exc w₁ hfailed
    refine wp_seq (S := fun _ w' => exc = .dbApiError →
        Failed settings batch w w' ∧ w'.aborted i = false ∧ w'.ownRows i = [])
      (wp_alone ?_ fun ch e w' hadm hexec => (hrollback ch e w' hadm hexec).elim) fun _ _ hw => hw
    intro ch a w' _ hexec hexc
    rw [exec_rollback hexec]
    exact ⟨(hfailed hexc).rollback, setAt_self _ _ _, w₁.ownRows_dropRows_self i⟩
  · intro r w₁ _
    exact wp_seq (S := fun _ _ => True) (wp_alone (fun _ _ _ _ _ => trivial)
      fun ch e w' hadm hexec => (hrollback ch e w' hadm hexec).elim) fun _ _ _ => trivial

theorem Failed.noTrace_iff {batch : List EventCreate} {w' : World}
    (h : Failed settings batch w w') :
    NoTrace batch w w' ↔ ∀ item ∈ batch, w.hasKey item.eventId = true := by
  constructor
  · intro hnone item hitem
    by_contra hkey
    obtain ⟨item', hitem', hbefore, hafter⟩ := h.traced ⟨item, hitem, by simpa using hkey⟩
    simp [hnone.keys item' hitem', hbefore] at hafter
  · intro hall
    exact ⟨h.events, fun item hitem => by rw [(h.untraced hall item hitem).1, hall item hitem]⟩

theorem solo_ingestAll (py : Python) (request : Request) (httl : 0 < settings.idemTtlSeconds)
    (haborted : w.aborted i = false)
    {batch : List EventCreate} (hkeys : ∀ item ∈ batch, w.hasKey item.eventId = true)
    (acc : EventBatchResult) :
    ∃ res, Solo backend noFaults i w (ingestAll py settings request batch acc) (.ok res) w := by
  induction batch generalizing acc with
  | nil => exact ⟨acc, .ret⟩
  | cons item batch ih =>
      obtain ⟨res, hrest⟩ := ih (fun item' hitem' => hkeys item' (List.mem_cons_of_mem _ hitem')) _
      exact ⟨res, (solo_ingestOne py _ _ httl haborted (hkeys item List.mem_cons_self)).bind rfl
        hrest⟩

theorem solo_ingestBatch (py : Python) (request : Request) (httl : 0 < settings.idemTtlSeconds)
    (haborted : w.aborted i = false)
    {batch : List EventCreate} (hkeys : ∀ item ∈ batch, w.hasKey item.eventId = true) :
    ∃ res w', Solo backend noFaults i w (ingestBatch py settings request batch) (.ok res) w' ∧
      w'.events = w.events ++ w.ownRows i := by
  obtain ⟨res, hloop⟩ := solo_ingestAll py request httl haborted hkeys
    ⟨[], 0, 0⟩
  have hcommit : (w.commitTx i).events = w.events ++ w.ownRows i := by
    simp [World.commitTx, haborted]
  have hbody : Solo backend noFaults i w
      (ingestAll py settings request batch ⟨[], 0, 0⟩ >>= fun r => await .commit >>= fun _ =>
        pure r) (.ok res) (w.commitTx i) := hloop.bind rfl (.call .ok rfl rfl .ret)
  have hclose : Solo backend noFaults i (w.commitTx i) (await .rollback >>= fun _ => pure res)
      (.ok res) ((w.commitTx i).rollbackTx i) := .call .ok rfl rfl .ret
  exact ⟨res, (w.commitTx i).rollbackTx i, (hbody.tryExcept rfl).bind rfl hclose, hcommit⟩

end Sync

/-- A failed batch leaves no trace and can be sent again exactly when it had
nothing to add: every event has its key and is stored. -/
theorem failed_batch_iff (py : Python) {settings : Settings}
    (hsync : settings.isAsyncIngest = false) (request : Request) (batch : List EventCreate)
    {i : Nat} {w w' : World} (hsession : w.aborted i = false)
    (hfail : Solo backend databaseFaults i w (createEventsBatch py settings request batch)
      (.error .dbApiError) w') :
    NoTrace batch w w' ∧ Resubmittable py settings request batch i w' ↔
      ∀ item ∈ batch, w.hasKey item.eventId = true ∧ w.stored item.eventId = true := by
  obtain ⟨hfailed, haborted, hrows⟩ :=
    hfail.sound (wp_createEventsBatch hsync hsession batch) rfl
  have hstored : ∀ {v : World} {e}, v.events = w.events → v.stored e = w.stored e := by
    intro v e hv
    simp [World.stored, hv]
  rw [hfailed.noTrace_iff]
  constructor
  · rintro ⟨hall, hagain⟩ item hitem
    refine ⟨hall item hitem, ?_⟩
    obtain ⟨res, v, hrun, hv⟩ := solo_ingestBatch py request
      (hfailed.untraced hall item hitem).2 haborted
      fun item hitem => (hfailed.untraced hall item hitem).1
    rw [hrows, List.append_nil, hfailed.events] at hv
    rw [← hstored hv]
    exact hagain _ v hrun item hitem
  · intro hall
    refine ⟨fun item hitem => (hall item hitem).1, fun r v hrun item hitem => ?_⟩
    have hgrows : w'.Grows v := hrun.relates World.Grows.refl
      (fun _ _ _ hab hbc => hab.trans hbc) fun _ _ _ _ _ hexec => exec_grows hexec
    exact hgrows.stored ((hstored hfailed.events).trans (hall item hitem).2)

def syncSettings : Settings := { ingestMode := "sync" }

def oneRequest : Request := ⟨some "10.0.0.1", none, none, "u1"⟩

def oneEvent : List EventCreate := [{ eventId := 1, sessionId := "s1", eventType := .view }]

def limiterPasses : List Choice := List.replicate 9 .ok

/-- The `INSERT` is rejected and the key stays: the event is not stored, and will
be answered as a duplicate when it is sent again. -/
theorem trace_of_rejected_insert :
    ¬ ∀ w', Solo backend databaseFaults 0 (World.init 0)
        (createEventsBatch (.ofTable [] []) syncSettings oneRequest oneEvent)
        (.error .dbApiError) w' →
      NoTrace oneEvent (World.init 0) w' ∧
        Resubmittable (.ofTable [] []) syncSettings oneRequest oneEvent 0 w' := by
  intro h
  obtain ⟨r, w', hrun, htest⟩ := exists_solo_of_run (M := backend) (π := databaseFaults) (i := 0)
    (limiterPasses ++ [.ok, .ok, .raiseAfter, .ok]) (World.init 0)
    (createEventsBatch (.ofTable [] []) syncSettings oneRequest oneEvent)
    (fun r w' => (match r with | .error e => decide (e = .dbApiError) | .ok _ => false) &&
      w'.hasKey 1) (by decide +kernel)
  simp only [Bool.and_eq_true] at htest
  cases r with
  | ok res => simp at htest
  | error e =>
      cases of_decide_eq_true htest.1
      have hkey := (h w' hrun).1.keys _ List.mem_cons_self
      rw [htest.2] at hkey
      exact absurd hkey (by decide)

def storedOnce : World :=
  { (World.init 0).setKey 1 .done 86400 with
    events := [syncRow (.ofTable [] []) { eventId := 1, sessionId := "s1", eventType := .view }
      none none 0] }

theorem failed_batch_iff_stored_once :
    ∃ w', Solo backend databaseFaults 0 storedOnce
        (createEventsBatch (.ofTable [] []) syncSettings oneRequest oneEvent)
        (.error .dbApiError) w' ∧
      NoTrace oneEvent storedOnce w' ∧
        Resubmittable (.ofTable [] []) syncSettings oneRequest oneEvent 0 w' := by
  obtain ⟨r, w', hrun, htest⟩ := exists_solo_of_run (M := backend) (π := databaseFaults) (i := 0)
    (limiterPasses ++ [.ok, .ok, .raiseBefore, .ok]) storedOnce
    (createEventsBatch (.ofTable [] []) syncSettings oneRequest oneEvent)
    (fun r _ => match r with | .error e => decide (e = .dbApiError) | .ok _ => false)
    (by decide +kernel)
  cases r with
  | ok res => simp at htest
  | error e =>
      cases of_decide_eq_true htest
      exact ⟨w', hrun, (failed_batch_iff (.ofTable [] []) (by decide +kernel) oneRequest oneEvent
        rfl hrun).mpr (by decide)⟩

end EventAnalytics.Api
