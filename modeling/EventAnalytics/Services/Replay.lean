import EventAnalytics.Library.Sequential
import EventAnalytics.Services.Phantom

/-! What a replay of a stored event is answered. The key says so as long as it
lives; after that only the synchronous path asks the table. -/
namespace EventAnalytics.Services

open Library Library.Discipline Workers

section Calls

variable (py : Python) {settings : Settings} {i : Nat} {w : World} {payload : EventCreate}
  (ip userAgent : Option String)

theorem solo_ingestOne (httl : 0 < settings.idemTtlSeconds) (haborted : w.aborted i = false)
    (hkey : w.hasKey payload.eventId = true) :
    Solo backend noFaults i w (ingestOne py settings payload ip userAgent)
      (.ok ⟨payload.eventId, .deduplicated, true, ingestMode settings⟩) w := by
  have hclaim : backend.exec i .ok w (.setNx payload.eventId settings.idemTtlSeconds) =
      some (.ok false, w) := by
    simp [backend, effect, Nat.pos_iff_ne_zero.mp httl, hkey]
  have hlookup : ∃ found, backend.exec i .ok w (.selectEvent payload.eventId) =
      some (.ok found, w) := ⟨_, by simp [backend, effect, haborted]; rfl⟩
  obtain ⟨found, hlookup⟩ := hlookup
  refine .call .ok rfl hclaim (.call .ok rfl hlookup ?_)
  cases found <;> exact .ret

theorem exec_claim (httl : 0 < settings.idemTtlSeconds)
    (hkey : w.hasKey payload.eventId = false) :
    backend.exec i .ok w (.setNx payload.eventId settings.idemTtlSeconds) =
      some (.ok true, w.setKey payload.eventId .pending settings.idemTtlSeconds) := by
  simp [backend, effect, Nat.pos_iff_ne_zero.mp httl, hkey]

theorem solo_ingestOne_async (httl : 0 < settings.idemTtlSeconds)
    (hasync : settings.isAsyncIngest = true) (hkey : w.hasKey payload.eventId = false) :
    ∃ w', Solo backend .any i w (ingestOne py settings payload ip userAgent)
      (.ok ⟨payload.eventId, .queued, false, ingestMode settings⟩) w' := by
  have hrest : ∃ w', Solo backend .any i (w.setKey payload.eventId .pending settings.idemTtlSeconds)
      (Mq.enqueueEvent py (asyncPayload py payload ip userAgent) >>= fun _ =>
        pure (⟨payload.eventId, .queued, false, ingestMode settings⟩ : EventIngestResult))
      (.ok ⟨payload.eventId, .queued, false, ingestMode settings⟩) w' :=
    ⟨_, (Solo.perform .ok rfl rfl).bind rfl .ret⟩
  obtain ⟨w', hrest⟩ := hrest
  refine ⟨w', (Solo.perform .ok rfl (exec_claim httl hkey)).bind rfl ?_⟩
  simpa only [Bool.not_true, Bool.false_eq_true, if_false, hasync, if_true] using hrest

theorem solo_ingestOne_sync (httl : 0 < settings.idemTtlSeconds) (haborted : w.aborted i = false)
    (hsync : settings.isAsyncIngest = false) (hkey : w.hasKey payload.eventId = false)
    (hstored : w.stored payload.eventId = true) :
    ∃ w', Solo backend noFaults i w (ingestOne py settings payload ip userAgent)
      (.ok ⟨payload.eventId, .deduplicated, true, ingestMode settings⟩) w' := by
  let w₁ := w.setKey payload.eventId .pending settings.idemTtlSeconds
  have hinsert : backend.exec i .ok w₁
      (.insertEvent (syncRow py payload ip userAgent w₁.clock) .request) =
        some (.ok false, w₁) := by
    have hstored' : w₁.stored payload.eventId = true := hstored
    have haborted' : w₁.aborted i = false := haborted
    simp [backend, effect, haborted', syncRow, hstored']
  have hmark : ∃ w₂, backend.exec i .ok w₁ (.setXx payload.eventId settings.idemTtlSeconds) =
      some (.ok (), w₂) := ⟨_, by simp [backend, effect, Nat.pos_iff_ne_zero.mp httl]; rfl⟩
  obtain ⟨w₂, hmark⟩ := hmark
  have hrest : Solo backend noFaults i w₁ (ingestSync py settings payload ip userAgent)
      (.ok ⟨payload.eventId, .deduplicated, true, ingestMode settings⟩) w₂ :=
    (Solo.perform .ok rfl rfl).bind rfl ((Solo.perform .ok rfl hinsert).bind rfl
      ((Solo.perform .ok rfl hmark).bind rfl .ret))
  refine ⟨w₂, (Solo.perform .ok rfl (exec_claim httl hkey)).bind rfl ?_⟩
  simpa only [Bool.not_true, Bool.false_eq_true, if_false, hsync] using hrest

structure Still (w w' : World) : Prop where
  stream : w'.stream = w.stream
  events : w'.events = w.events

theorem Still.trans {a b c : World} (hab : Still a b) (hbc : Still b c) : Still a c :=
  ⟨hbc.stream.trans hab.stream, hbc.events.trans hab.events⟩

theorem still_quiet {ch : Choice} {w' : World} {c : Cmd} {r : Except Exn c.Resp}
    (hquiet : c.quiet = true) (hexec : backend.exec i ch w c = some (r, w')) : Still w w' :=
  ⟨(exec_quiet hquiet hexec).stream, (exec_quiet hquiet hexec).events⟩

theorem wp_still {w₀ : World} (hw : Still w₀ w) {c : Cmd} {P : c.Resp → Prop}
    (hexec : ∀ ch r w', backend.exec i ch w c = some (r, w') →
      Still w w' ∧ ∀ a, r = .ok a → P a) :
    (alone backend .any i).wp i (await c)
      (ends (fun a w' => P a ∧ Still w₀ w') fun _ => Still w₀) w :=
  wp_alone
    (fun ch a w' _ h => ⟨(hexec ch _ w' h).2 a rfl, hw.trans (hexec ch _ w' h).1⟩)
    fun ch _ w' _ h => hw.trans (hexec ch _ w' h).1

theorem wp_ingestSync_stored {w₀ : World} (hw : Still w₀ w)
    (hstored : w₀.stored payload.eventId = true) :
    (alone backend .any i).wp i (ingestSync py settings payload ip userAgent)
      (ends (fun res w' => res.deduplicated = true ∧ Still w₀ w') fun _ => Still w₀) w := by
  unfold ingestSync markDone
  refine wp_seq (wp_still (P := fun _ => True) hw fun ch r w' hexec =>
    ⟨still_quiet rfl hexec, fun _ _ => trivial⟩) fun serverTs w₁ ⟨_, hw₁⟩ => ?_
  refine wp_seq (wp_still (P := fun inserted => inserted = false) hw₁ fun ch r w' hexec => ?_)
    fun inserted w₂ ⟨hfalse, hw₂⟩ => ?_
  · rcases exec_insertEvent hexec with ⟨-, -, -, hfree, -⟩ | ⟨rfl, -, -, -, rfl⟩ | ⟨rfl, rfl, -⟩ |
      ⟨rfl, rfl, -⟩
    · have hstored₁ : w₁.stored payload.eventId = true := by
        simpa [World.stored, hw₁.events] using hstored
      simp [syncRow, hstored₁] at hfree
    · exact ⟨⟨rfl, rfl⟩, by simp⟩
    · exact ⟨⟨rfl, rfl⟩, by simp⟩
    · exact ⟨⟨rfl, rfl⟩, by simp⟩
  refine wp_seq (wp_still (P := fun _ => True) hw₂ fun ch r w' hexec =>
    ⟨still_quiet rfl hexec, fun _ _ => trivial⟩) fun _ w₃ ⟨_, hw₃⟩ => ?_
  subst hfalse
  exact ⟨rfl, hw₃⟩

theorem wp_ingestOne_stored (hstored : w.stored payload.eventId = true)
    (hcond : settings.isAsyncIngest = false ∨ w.hasKey payload.eventId = true) :
    (alone backend .any i).wp i (ingestOne py settings payload ip userAgent)
      (ends (fun res w' => res.deduplicated = true ∧ Still w w') fun _ => Still w) w := by
  unfold ingestOne claimIdempotency alreadyInDb
  refine wp_seq (wp_still (P := fun claimed => claimed = true → settings.isAsyncIngest = false)
    ⟨rfl, rfl⟩ fun ch r w' hexec => ⟨still_quiet rfl hexec, ?_⟩)
    fun claimed w₁ ⟨hclaimed, hw₁⟩ => ?_
  · rintro claimed rfl rfl
    rcases exec_setNx hexec with ⟨hr, -⟩ | ⟨-, hfree, -⟩ | ⟨exc, hr, -⟩ | ⟨exc, hr, -⟩
    · cases hr
    · exact hcond.resolve_right (by simp [hfree])
    · cases hr
    · cases hr
  cases claimed with
  | false =>
      simp only [Bool.not_false, if_true]
      refine wp_seq
        (wp_still (P := fun _ => True) hw₁ fun ch r w' hexec => ⟨?_, fun _ _ => trivial⟩)
        fun found w₂ ⟨_, hw₂⟩ => ?_
      · rcases exec_selectEvent hexec with rfl | ⟨rfl, -⟩ <;> exact ⟨rfl, rfl⟩
      · cases found <;> exact ⟨rfl, hw₂⟩
  | true =>
      simp only [Bool.not_true, Bool.false_eq_true, if_false, hclaimed rfl]
      exact wp_ingestSync_stored py ip userAgent hw₁ hstored

end Calls

/-- The law of replays in one state: a call that returns says that the event is a
duplicate, a call changes neither stream nor table however it goes, and it does
return when nothing fails. -/
structure Reports (py : Python) (settings : Settings) (payload : EventCreate)
    (ip userAgent : Option String) (i : Nat) (w : World) : Prop where
  answer : ∀ res w', Solo backend .any i w (ingestOne py settings payload ip userAgent)
    (.ok res) w' → res.deduplicated = true
  still : ∀ r w', Solo backend .any i w (ingestOne py settings payload ip userAgent) r w' →
    Still w w'
  returns : ∃ res w', Solo backend noFaults i w (ingestOne py settings payload ip userAgent)
    (.ok res) w'

/-- A stored event is reported as a duplicate exactly in sync mode and while its
key lives; the time to live must be one that Redis accepts. -/
theorem reports_iff (py : Python) (settings : Settings) (payload : EventCreate)
    (ip userAgent : Option String) {i : Nat} {w : World} (hsession : w.aborted i = false)
    (hstored : w.stored payload.eventId = true) :
    Reports py settings payload ip userAgent i w ↔
      0 < settings.idemTtlSeconds ∧
        (settings.isAsyncIngest = false ∨ w.hasKey payload.eventId = true) := by
  constructor
  · intro h
    have httl : 0 < settings.idemTtlSeconds := by
      obtain ⟨res, w', hrun⟩ := h.returns
      by_contra hzero
      cases hrun with
      | call ch hadm hexec hrest =>
          cases of_decide_eq_true hadm
          simp only [backend, effect, Nat.eq_zero_of_not_pos hzero, if_true, Option.some.injEq,
            Prod.mk.injEq] at hexec
          obtain ⟨rfl, -⟩ := hexec
          cases hrest
    refine ⟨httl, ?_⟩
    by_contra hcond
    simp only [not_or, Bool.not_eq_false, Bool.not_eq_true] at hcond
    obtain ⟨w', hrun⟩ := solo_ingestOne_async py ip userAgent httl hcond.1 hcond.2
    exact absurd (h.answer _ _ hrun) (by simp)
  · rintro ⟨httl, hcond⟩
    have hwp := wp_ingestOne_stored (i := i) py ip userAgent hstored hcond
    refine ⟨fun res w' hrun => (hrun.sound hwp).1, fun r w' hrun => ?_, ?_⟩
    · have hsound := hrun.sound hwp
      cases r with
      | ok res => exact hsound.2
      | error e => exact hsound
    · cases hkey : w.hasKey payload.eventId with
      | true => exact ⟨_, _, solo_ingestOne py ip userAgent httl hsession hkey⟩
      | false =>
          obtain ⟨w', hrun⟩ := solo_ingestOne_sync py ip userAgent httl hsession
            (hcond.resolve_right (by simp [hkey])) hkey hstored
          exact ⟨_, w', hrun⟩

def firstEvent : EventCreate := { eventId := 1, sessionId := "s1", eventType := .view }

def storedOnly : World :=
  { World.init 0 with events := [syncRow (.ofTable [] []) firstEvent none none 0] }

theorem reports_iff_without_key :
    Reports (.ofTable [] []) { ingestMode := "sync" } firstEvent none none 0 storedOnly :=
  (reports_iff (.ofTable [] []) { ingestMode := "sync" } firstEvent none none rfl
    (by decide +kernel)).mpr ⟨by decide, .inl (by decide +kernel)⟩

/-- The event is enqueued and stored by a worker. A day after its key was set for
the last time, a replay is queued as a new event. -/
theorem new_after_expiry :
    ¬ ∀ cfg, Reach backend .any (system mixedBatch {} oneCall (World.init 0)) cfg →
      cfg.world.aborted 2 = false → cfg.world.stored firstEvent.eventId = true →
      Reports mixedBatch {} firstEvent none none 2 cfg.world := by
  intro h
  obtain ⟨cfg, hreach, htest⟩ := exists_reach_of_run (M := backend) (π := .any)
    (.start 0 :: List.replicate 2 (.step 0 .ok) ++ .start 1 :: List.replicate 12 (.step 1 .ok) ++
      [.env (.tick 86400000)])
    (system mixedBatch {} oneCall (World.init 0))
    (fun cfg => !cfg.world.aborted 2 && cfg.world.stored 1 &&
      !cfg.world.hasKey 1)
    (by decide +kernel)
  simp only [Bool.and_eq_true, Bool.not_eq_true'] at htest
  obtain ⟨⟨haborted, hstored⟩, hkey⟩ := htest
  obtain ⟨w', hrun⟩ : ∃ w', Solo backend .any 2 cfg.world
      (ingestOne mixedBatch {} firstEvent none none)
      (.ok ⟨firstEvent.eventId, .queued, false, ingestMode {}⟩) w' :=
    solo_ingestOne_async mixedBatch none none (by decide) (by decide +kernel) hkey
  exact absurd ((h cfg hreach haborted hstored).answer _ _ hrun) (by simp)

end EventAnalytics.Services
