import EventAnalytics.IdemKeys
import EventAnalytics.Library.Auxiliary
import EventAnalytics.Services.EventService
import EventAnalytics.Workers.NoLoss

/-! Whether a key can outlive its event in async mode. A call of `ingest_one`
claims the key and enqueues the event in two writes; between them the claim is
the only trace of the event. -/
namespace EventAnalytics.Services

open Library Library.Discipline Redis Workers

inductive Job
  | pass
  | ingest (payload : EventCreate) (ip userAgent : Option String)

def Job.event? : Job → Option UUID
  | .pass => none
  | .ingest payload _ _ => some payload.eventId

def Job.run (py : Python) (settings : Settings) : Job → App Unit
  | .pass => do
    let _ ← processEventStream py settings
    pure ()
  | .ingest payload ip userAgent => do
    let _ ← ingestOne py settings payload ip userAgent
    pure ()

/-- The event is stored, or some entry of it is undelivered, pending or
dead-lettered. -/
def Backed (py : Python) (w : World) (e : UUID) : Prop :=
  w.stored e = true ∨ ∃ (id : Nat) (fields : Entry), w.stream.added[id]? = some fields ∧
    eventIdOf py fields = some e ∧
    (w.stream.Undelivered id ∨ w.stream.IsPending id ∨ DeadLettered py w id)

/-- Passes meet no error; a call of `ingest_one` may raise or die anywhere. -/
def errorFreePasses (jobs : Nat → Job) : BackendPolicy where
  step i ch _ _ :=
    match jobs i with
    | .pass => ch = .ok
    | .ingest .. => true
  crash i _ _ :=
    match jobs i with
    | .pass => false
    | .ingest .. => true
  env := fun _ _ => true

/-- Passes meet no error. A call of `ingest_one` may raise or die anywhere but
between the two writes: not when its `SET NX` has created the key, and not before
its `XADD` has had its effect. -/
def unbroken (jobs : Nat → Job) : BackendPolicy where
  step i ch w c :=
    match jobs i, ch, c with
    | .pass, ch, _ => ch = .ok
    | _, .raiseAfter, .setNx e _ => w.hasKey e
    | _, .raiseBefore, .xadd _ => false
    | _, _, _ => true
  crash i _ c :=
    match jobs i, c with
    | .pass, _ => false
    | _, .xadd _ => false
    | _, _ => true
  env := fun _ _ => true

/-- The claims that are won and not yet followed by an entry, by thread. -/
abbrev Claims := Nat → Option UUID

def claimRecorder : Recorder Cmd.Resp Exn World Claims where
  step i _ c r _ claims :=
    match c, r with
    | .setNx e _, .ok true => setAt claims i (some e)
    | .xadd _, _ => setAt claims i none
    | _, _ => claims
  crash _ _ claims := claims

/-- A key is backed by its event or by a claim whose call is still at work. -/
structure Claimed (py : Python) (jobs : Nat → Job) (w : World × Claims) : Prop where
  custody : Custody py lossless w.1
  keys : ∀ e, w.1.hasKey e = true →
    w.1.stored e = true ∨ Known py w.1 e ∨ ∃ i, w.2 i = some e
  owner : ∀ i e, w.2 i = some e → (jobs i).event? = some e

/-- Calls claim their own event, one at a time, and enqueue what they claimed. -/
def claimDuty (py : Python) (jobs : Nat → Job) (i : Nat) (w : World × Claims) : Cmd → Prop
  | .setNx e _ => w.2 i = none ∧ (jobs i).event? = some e
  | .xadd data => ∃ e, (jobs i).event? = some e ∧ eventIdOf py ⟨some data⟩ = some e
  | _ => True

section Sound

variable {py : Python} {jobs : Nat → Job} {w : World × Claims} {w' : World} {i : Nat}

/-- Only a claim makes a key for an event of which no entry is known. -/
theorem hasKey_or_known {terms : Terms} {i : Nat} {ch : Choice} {w w' : World} {c : Cmd}
    {r : Except Exn c.Resp} {e : UUID} (hduty : duty py terms w c)
    (hclaim : ∀ e ttl, c ≠ .setNx e ttl) (hexec : backend.exec i ch w c = some (r, w'))
    (he : w'.hasKey e = true) : w.hasKey e = true ∨ Known py w' e := by
  cases c with
  | setNx e' ttl => exact absurd rfl (hclaim e' ttl)
  | setXx e' ttl =>
      left
      rcases exec_setXx hexec with rfl | ⟨hkey, -, rfl⟩
      · exact he
      · by_cases heq : e = e'
        · exact heq ▸ hkey
        · rwa [World.hasKey_setKey_ne heq] at he
  | setDone e' ttl =>
      have hknown : Known py w e' := hduty
      rcases exec_setDone hexec with rfl | ⟨-, rfl⟩
      · exact .inl he
      · by_cases heq : e = e'
        · exact .inr (heq ▸ hknown)
        · rw [World.hasKey_setKey_ne heq] at he
          exact .inl he
  | _ =>
      have hkeys := exec_keys rfl hexec
      rw [World.hasKey_congr hkeys.1 hkeys.2] at he
      exact .inl he

theorem Claimed.keep (h : Claimed py jobs w) (hcustody : Custody py lossless w')
    (hgrows : w.1.Grows w')
    (hkeys : ∀ e, w'.hasKey e = true → w.1.hasKey e = true ∨ Known py w' e) :
    Claimed py jobs (w', w.2) := by
  refine ⟨hcustody, fun e he => ?_, h.owner⟩
  rcases hkeys e he with hkey | hknown
  · rcases h.keys e hkey with hstored | hknown | hclaim
    · exact .inl (hgrows.stored hstored)
    · exact .inr (.inl (hknown.grows hgrows))
    · exact .inr (.inr hclaim)
  · exact .inr (.inl hknown)

section Claims

variable {claims : Claims} {owner : Nat → Option UUID} {v : World} {e e' mine : UUID}

theorem claim_taken (hnone : claims i = none)
    (h : v.stored e' = true ∨ Known py v e' ∨ ∃ j, claims j = some e') :
    v.stored e' = true ∨ Known py v e' ∨ ∃ j, setAt claims i (some e) j = some e' := by
  rcases h with hstored | hknown | ⟨j, hj⟩
  · exact .inl hstored
  · exact .inr (.inl hknown)
  · have hji : j ≠ i := by
      rintro rfl
      rw [hnone] at hj
      cases hj
    exact .inr (.inr ⟨j, (setAt_ne _ _ hji).trans hj⟩)

theorem claim_settled (hmine : ∀ e, claims i = some e → e = mine) (hknown : Known py v mine)
    (h : v.stored e = true ∨ Known py v e ∨ ∃ j, claims j = some e) :
    v.stored e = true ∨ Known py v e ∨ ∃ j, setAt claims i none j = some e := by
  rcases h with hstored | hknown' | ⟨j, hj⟩
  · exact .inl hstored
  · exact .inr (.inl hknown')
  · by_cases hji : j = i
    · subst hji
      rw [hmine e hj]
      exact .inr (.inl hknown)
    · exact .inr (.inr ⟨j, (setAt_ne _ _ hji).trans hj⟩)

theorem owner_setAt (h : ∀ j e, claims j = some e → owner j = some e) {claim : Option UUID}
    (hclaim : ∀ e, claim = some e → owner i = some e) (j : Nat) (e : UUID)
    (hj : setAt claims i claim j = some e) : owner j = some e := by
  by_cases hji : j = i
  · subst hji
    rw [setAt_self] at hj
    exact hclaim e hj
  · rw [setAt_ne _ _ hji] at hj
    exact h j e hj

end Claims

theorem Claimed.setNx (h : Claimed py jobs w) {ch : Choice} {e : UUID} {ttl : Nat}
    {r : Except Exn Bool} (hduty : claimDuty py jobs i w (.setNx e ttl))
    (hadm : ch = .raiseAfter → w.1.hasKey e = true)
    (hexec : backend.exec i ch w.1 (.setNx e ttl) = some (r, w'))
    (hcustody : Custody py lossless w') :
    Claimed py jobs (w', claimRecorder.step i w.1 (.setNx e ttl) r w' w.2) := by
  rcases exec_setNx hexec with ⟨rfl, -, -, rfl⟩ | ⟨rfl, -, -, rfl⟩ | ⟨exc, rfl, rfl⟩ |
    ⟨exc, -, hch, hkey, -⟩
  · exact h
  · refine ⟨hcustody, fun e' he' => ?_, owner_setAt h.owner fun e' he' => ?_⟩
    · by_cases heq : e' = e
      · subst heq
        exact .inr (.inr ⟨i, setAt_self _ _ _⟩)
      · rw [World.hasKey_setKey_ne heq] at he'
        exact claim_taken hduty.1 (h.keys e' he')
    · cases he'
      exact hduty.2
  · exact h
  · simp [hadm hch] at hkey

theorem Claimed.xadd (h : Claimed py jobs w) {ch : Choice} {data : String}
    {r : Except Exn Nat} (hduty : claimDuty py jobs i w (.xadd data))
    (hadm : ch ≠ .raiseBefore)
    (hexec : backend.exec i ch w.1 (.xadd data) = some (r, w'))
    (hcustody : Custody py lossless w') :
    Claimed py jobs (w', claimRecorder.step i w.1 (.xadd data) r w' w.2) := by
  have hadded : w' = { w.1 with stream := (w.1.stream.xadd ⟨some data⟩).2 } := by
    cases ch with
    | ok => cases hexec; rfl
    | raiseBefore => exact absurd rfl hadm
    | raiseAfter => cases hexec; rfl
  obtain ⟨mine, hmine, hdata⟩ := hduty
  have hknown : Known py w' mine := by
    subst hadded
    exact ⟨w.1.stream.added.length, ⟨some data⟩, by simp [Stream.xadd], hdata⟩
  have hclaim (e : UUID) (he : w.2 i = some e) : e = mine :=
    Option.some.inj ((h.owner i e he).symm.trans hmine)
  have hgrows := exec_grows hexec
  refine ⟨hcustody, fun e he => ?_, owner_setAt h.owner fun e he => by cases he⟩
  subst hadded
  apply claim_settled hclaim hknown
  exact (h.keys e he).imp_right fun hrest => hrest.imp_left fun hknown' => hknown'.grows hgrows

theorem Claimed.exec (h : Claimed py jobs w) {ch : Choice} {c : Cmd} {r : Except Exn c.Resp}
    (hadm : (unbroken jobs).step i ch w.1 c = true) (hduty : duty py lossless w.1 c)
    (hclaim : claimDuty py jobs i w c) (hexec : backend.exec i ch w.1 c = some (r, w')) :
    Claimed py jobs (w', claimRecorder.step i w.1 c r w' w.2) := by
  have hcustody := h.custody.exec hduty hexec
  cases c with
  | setNx e ttl =>
      refine h.setNx hclaim (fun hch => ?_) hexec hcustody
      subst hch
      cases hjob : jobs i <;> simp_all [unbroken, claimDuty, Job.event?]
  | xadd data =>
      refine h.xadd hclaim (fun hch => ?_) hexec hcustody
      subst hch
      cases hjob : jobs i <;> simp [unbroken, hjob] at hadm
  | _ =>
      exact h.keep hcustody (exec_grows hexec)
        fun e => hasKey_or_known hduty (by rintro e ttl ⟨⟩) hexec

theorem Claimed.env (h : Claimed py jobs w) {act : EnvAct}
    (henv : backend.env act w.1 = some w') : Claimed py jobs (w', w.2) := by
  refine h.keep (h.custody.env henv) (env_frame henv 0).toGrows fun e he => .inl ?_
  cases act with
  | tick ms =>
      cases henv
      exact World.hasKey_of_tick he
  | produce entry =>
      cases henv
      exact he

end Sound

def claims (py : Python) (jobs : Nat → Job) :
    Discipline Cmd.Resp Exn (World × Claims) Choice EnvAct where
  machine := backend.recorded claimRecorder
  policy := (unbroken jobs).recorded Claims
  inv := Claimed py jobs
  rely := fun i w w' => w.1.Frame i w'.1 ∧ w'.2 i = w.2 i
  duty := fun i w c => duty py lossless w.1 c ∧ claimDuty py jobs i w c
  rely_refl := fun i w => ⟨.refl i w.1, rfl⟩
  rely_trans := fun _ _ _ _ hab hbc => ⟨hab.1.trans hbc.1, hbc.2.trans hab.2⟩
  step_sound := by
    intro i ch ⟨w, claims⟩ c r ⟨w', claims'⟩ hadm hinv hduty hexec
    obtain ⟨hbackend, hclaims⟩ := Machine.exec_recorded hexec
    dsimp only at hbackend hclaims
    subst hclaims
    refine ⟨hinv.exec hadm hduty.1 hduty.2 hbackend, fun j hj =>
      ⟨exec_frame hj hbackend, ?_⟩⟩
    simp only [claimRecorder]
    split <;> simp [setAt_ne _ _ hj]
  crash_sound := fun i w _ _ hinv =>
    ⟨hinv.keep (hinv.custody.rollbackTx i)
      (w.1.frame_rollbackTx (Nat.succ_ne_self i)).toGrows fun _ he => .inl he,
      fun _ hj => ⟨crash_frame w.1 hj, rfl⟩⟩
  env_sound := by
    intro act w w' _ hinv henv
    obtain ⟨w₁, hbackend, rfl⟩ := Option.map_eq_some_iff.mp henv
    exact ⟨hinv.env hbackend, fun j => ⟨env_frame hbackend j, rfl⟩⟩

section Jobs

variable {py : Python} {settings : Settings} {jobs : Nat → Job} {i : Nat} {w : World × Claims}

def OwesNothing {α : Type} (i : Nat) (_ : Outcome Exn α) (w : World × Claims) : Prop :=
  w.2 i = none

theorem wp_pass (hjob : jobs i = .pass) (hinv : Claimed py jobs w) :
    (claims py jobs).wp i (Job.run py settings .pass) (fun _ _ => True) w := by
  have hrespected : lossless.Respected py settings (unbroken jobs) i :=
    { gentle := fun _ w row origin hadm => by simp [unbroken, hjob] at hadm
      invalid := fun _ _ => trivial
      rejected := fun _ _ _ _ _ _ _ _ _ _ _ _ _ _ => trivial
      quiet := fun _ _ _ _ _ _ _ _ _ => trivial }
  have hpass : (custody py lossless (unbroken jobs)).wp i (Job.run py settings .pass)
      (ends (fun _ _ => True) fun _ _ => True) w.1 :=
    wp_seq (wp_processEventStream hrespected) fun _ _ _ => trivial
  refine wp_mono (fun _ _ _ => trivial) (wp_recorded
    (D := custody py lossless (unbroken jobs)) (E := claims py jobs) (R := claimRecorder) rfl
    (fun _ _ _ hadm => hadm) (fun _ _ hadm => hadm)
    (fun _ _ hlater => ⟨hlater.1.custody, hlater.2.1⟩) ?_ hinv hpass)
  intro w c _ ⟨hofPass, hduty⟩
  refine ⟨hduty, ?_⟩
  cases c <;> trivial

theorem wp_unclaimed {α : Type} {c : Cmd} {f : c.Resp → App α}
    (hrecord : ∀ w r w' (claims : Claims), claimRecorder.step i w c r w' claims = claims)
    (hduty : duty py lossless w.1 c) (hclaim : claimDuty py jobs i w c) (hnone : w.2 i = none)
    (hf : ∀ a w', w'.2 i = none → (claims py jobs).wp i (f a) (OwesNothing i) w') :
    (claims py jobs).wp i (await c >>= f) (OwesNothing i) w := by
  have hstill : ∀ ch r w₁ w', (backend.recorded claimRecorder).exec i ch w c = some (r, w₁) →
      (claims py jobs).Later i w₁ w' → w'.2 i = none := by
    intro ch r w₁ w' hexec hlater
    rw [hlater.2.2, (Machine.exec_recorded hexec).2, hrecord]
    exact hnone
  refine wp_perform_bind ⟨hduty, hclaim⟩ (fun _ w' hlater => hlater.2.2.trans hnone) ?_ ?_
  · exact fun ch e w₁ _ hexec w' hlater => hstill ch _ w₁ w' hexec hlater
  · exact fun ch a w₁ _ hexec w' hlater => hf a w' (hstill ch _ w₁ w' hexec hlater)

/-- A call ends without an outstanding claim, however it ends. -/
theorem wp_ingestOne (hasync : settings.isAsyncIngest = true) {payload : EventCreate}
    {ip userAgent : Option String} (hjob : jobs i = .ingest payload ip userAgent)
    (hreadable : eventIdOf py ⟨some (py.dumps (asyncPayload py payload ip userAgent))⟩ =
      some payload.eventId) (hnone : w.2 i = none) :
    (claims py jobs).wp i (ingestOne py settings payload ip userAgent) (OwesNothing i) w := by
  have hmine : (jobs i).event? = some payload.eventId := by rw [hjob]; rfl
  unfold ingestOne claimIdempotency
  refine wp_perform_bind ⟨trivial, hnone, hmine⟩
    (fun _ w' hlater => hlater.2.2.trans hnone) ?_ ?_
  · intro ch e w₁ _ hexec w' hlater
    rw [OwesNothing, hlater.2.2, (Machine.exec_recorded hexec).2]
    exact hnone
  · intro ch claimed w₁ _ hexec w' hlater
    have hclaims := (Machine.exec_recorded hexec).2
    cases claimed with
    | false =>
        have hnone' : w'.2 i = none := by rw [hlater.2.2, hclaims]; exact hnone
        simp only [Bool.not_false, if_true, alreadyInDb]
        refine wp_unclaimed (fun _ _ _ _ => rfl) trivial trivial hnone' fun found w hw => ?_
        cases found <;> exact hw
    | true =>
        simp only [Bool.not_true, Bool.false_eq_true, if_false, hasync, if_true, Mq.enqueueEvent]
        -- from here to the `XADD` the claim is outstanding
        have hended : ∀ ch r w₂ w'' , (backend.recorded claimRecorder).exec i ch w'
            (.xadd (py.dumps (asyncPayload py payload ip userAgent))) = some (r, w₂) →
            (claims py jobs).Later i w₂ w'' → w''.2 i = none := by
          intro ch r w₂ w'' hexec hlater
          rw [hlater.2.2, (Machine.exec_recorded hexec).2]
          simp [claimRecorder]
        refine wp_perform_bind ⟨trivial, payload.eventId, hmine, hreadable⟩
          (fun hcrash => ?_) ?_ ?_
        · simp [claims, Policy.recorded, unbroken, hjob] at hcrash
        · exact fun ch e w₂ _ hexec w'' hlater => hended ch _ w₂ w'' hexec hlater
        · exact fun ch a w₂ _ hexec w'' hlater => hended ch _ w₂ w'' hexec hlater

theorem wp_ingest (hasync : settings.isAsyncIngest = true) {payload : EventCreate}
    {ip userAgent : Option String} (hjob : jobs i = .ingest payload ip userAgent)
    (hreadable : eventIdOf py ⟨some (py.dumps (asyncPayload py payload ip userAgent))⟩ =
      some payload.eventId) (hnone : w.2 i = none) :
    (claims py jobs).wp i (Job.run py settings (.ingest payload ip userAgent))
      (OwesNothing i) w := by
  refine wp_bind (wp_mono (fun o w' hw => ?_) (wp_ingestOne hasync hjob hreadable hnone))
  cases o <;> exact hw

end Jobs

/-- What the code relies on when it sends a payload through `json` and `uuid`. -/
structure RoundTrip (py : Python) (payload : Json) (e : UUID) : Prop where
  loads_dumps : py.loads (py.dumps payload) = .ok payload
  dumps_ne : py.dumps payload ≠ ""
  uuidOf_uuidStr : py.uuidOf (py.uuidStr e) = some e

theorem eventIdOf_asyncPayload {py : Python} {payload : EventCreate}
    {ip userAgent : Option String}
    (h : RoundTrip py (asyncPayload py payload ip userAgent) payload.eventId) :
    eventIdOf py ⟨some (py.dumps (asyncPayload py payload ip userAgent))⟩ =
      some payload.eventId := by
  have hparse : Mq.parseFields py ⟨some (py.dumps (asyncPayload py payload ip userAgent))⟩ =
      .ok (asyncPayload py payload ip userAgent) := by
    simp [Mq.parseFields, h.dumps_ne, h.loads_dumps]
  unfold eventIdOf
  rw [hparse]
  simp [asyncPayload, Mq.serializeEventPayload, Dict.get, uuidOfJson, h.uuidOf_uuidStr,
    Except.toOption]

def system (py : Python) (settings : Settings) (jobs : Nat → Job) (w : World) :
    Config Cmd.Resp Exn World Unit :=
  ⟨w, fun i => .ready ((jobs i).run py settings)⟩

/-- No call for the event is between its first and its last step. -/
def Idle (jobs : Nat → Job) (cfg : Config Cmd.Resp Exn World Unit) (e : UUID) : Prop :=
  ∀ i c k, (jobs i).event? = some e → cfg.threads i ≠ .running (.call c k)

theorem Backed.of_known {py : Python} {w : World} (h : Custody py lossless w) {e : UUID}
    (hknown : Known py w e) : Backed py w e := by
  obtain ⟨id, fields, hfields, he⟩ := hknown
  rcases h.accounted trivial id (List.getElem?_eq_some_iff.mp hfields).1 with
    hplace | hplace | hplace | ⟨fields', e', hfields', he', hstored⟩
  · exact .inr ⟨id, fields, hfields, he, .inl hplace⟩
  · exact .inr ⟨id, fields, hfields, he, .inr (.inl hplace)⟩
  · exact .inr ⟨id, fields, hfields, he, .inr (.inr hplace)⟩
  · cases hfields.symm.trans hfields'
    cases he.symm.trans he'
    exact .inl hstored

/-- Once no call for an event is at work, its key is backed. -/
theorem backed_of_unbroken (py : Python) {settings : Settings}
    (hasync : settings.isAsyncIngest = true) {jobs : Nat → Job}
    (hround : ∀ i payload ip userAgent, jobs i = .ingest payload ip userAgent →
      RoundTrip py (asyncPayload py payload ip userAgent) payload.eventId)
    {w : World} (hfresh : Fresh w) (hkeys : ∀ e, w.hasKey e = true → Backed py w e)
    {cfg : Config Cmd.Resp Exn World Unit}
    (hreach : Reach backend (unbroken jobs) (system py settings jobs w) cfg) {e : UUID}
    (hidle : Idle jobs cfg e) (hkey : cfg.world.hasKey e = true) : Backed py cfg.world e := by
  have hwp : ∀ i (w : World × Claims), Claimed py jobs w → w.2 i = none →
      (claims py jobs).wp i ((jobs i).run py settings)
        (fun _ w => (jobs i).event? = some e → w.2 i = none) w := by
    intro i w hinv hnone
    cases hjob : jobs i with
    | pass => exact wp_mono (fun _ _ _ h => by cases h) (wp_pass hjob hinv)
    | ingest payload ip userAgent =>
        exact wp_mono (fun _ _ h _ => h) (wp_ingest hasync hjob
          (eventIdOf_asyncPayload (hround i payload ip userAgent hjob)) hnone)
  obtain ⟨claimed, hrecorded⟩ := hreach.recorded claimRecorder fun _ => none
  have hstart : Claimed py jobs (w, fun _ => none) := by
    refine ⟨hfresh.custody py lossless, fun e he => ?_, by simp⟩
    rcases hkeys e he with hstored | ⟨id, fields, hfields, he, -⟩
    · exact .inl hstored
    · exact .inr (.inl ⟨id, fields, hfields, he⟩)
  have hkeeps := (keeps_ready (D := claims py jobs) (w := (w, fun _ => none)) hstart
    (fun i => (jobs i).run py settings)
    fun i w' hlater => hwp i w' hlater.1 (hlater.2.2.trans rfl)).reach hrecorded
  have hinv : Claimed py jobs (cfg.world, claimed) := hkeeps.inv
  rcases hinv.keys e hkey with hstored | hknown | ⟨i, hi⟩
  · exact .inl hstored
  · exact .of_known hinv.custody hknown
  · -- the call that made the claim has ended, so it owes nothing
    exfalso
    have hjob := hinv.owner i e hi
    have hthread := hkeeps.threads i
    simp only [Config.withAux] at hthread
    cases ht : cfg.threads i with
    | ready p =>
        cases Thread.ready.inj (hreach.ready ht)
        rw [ht] at hthread
        have hfirst := hthread _ (Later.refl hinv)
        cases hcall : jobs i with
        | pass => simp [hcall, Job.event?] at hjob
        | ingest payload ip userAgent =>
            rw [hcall] at hfirst
            obtain ⟨⟨-, hnone, -⟩, -⟩ := hfirst
            exact absurd (hi.symm.trans hnone) (by simp)
    | crashed =>
        rw [ht] at hthread
        have hnone := hthread _ (Later.refl hinv) hjob
        exact absurd (hi.symm.trans hnone) (by simp)
    | running p =>
        rw [ht] at hthread
        cases p with
        | ret a =>
            have hnone := hthread _ (Later.refl hinv) hjob
            exact absurd (hi.symm.trans hnone) (by simp)
        | raise exc =>
            have hnone := hthread _ (Later.refl hinv) hjob
            exact absurd (hi.symm.trans hnone) (by simp)
        | call c k => exact hidle i c k hjob ht

def oneCall (i : Nat) : Job :=
  if i = 0 then .ingest { eventId := 1, sessionId := "s1", eventType := .view } none none
  else .pass

/-- The call wins the claim and dies. Every further submission of the event is
answered as a duplicate of something that exists nowhere. -/
theorem phantom_after_crash :
    ¬ ∀ cfg e, Reach backend (errorFreePasses oneCall)
        (system mixedBatch {} oneCall (World.init 0)) cfg →
      Idle oneCall cfg e → cfg.world.hasKey e = true → Backed mixedBatch cfg.world e := by
  intro h
  obtain ⟨cfg, hreach, htest⟩ := exists_reach_of_run (M := backend)
    (π := errorFreePasses oneCall) [.start 0, .step 0 .ok, .crash 0]
    (system mixedBatch {} oneCall (World.init 0))
    (fun cfg => cfg.world.hasKey 1 && cfg.world.stream.added.isEmpty &&
      cfg.world.events.isEmpty && (cfg.threads 0).isCrashed)
    (by decide +kernel)
  simp only [Bool.and_eq_true, List.isEmpty_iff] at htest
  obtain ⟨⟨⟨hkey, hadded⟩, hevents⟩, hcrashed⟩ := htest
  have hidle : Idle oneCall cfg 1 := by
    intro i c k hjob hthread
    by_cases hi : i = 0
    · subst hi
      simp [hthread, Thread.isCrashed] at hcrashed
    · simp [oneCall, hi, Job.event?] at hjob
  rcases h cfg 1 hreach hidle hkey with hstored | ⟨id, fields, hfields, -⟩
  · simp [World.stored, hevents] at hstored
  · simp [hadded] at hfields

/-- Two submissions of one event, and passes. -/
def resubmitted (i : Nat) : Job :=
  if i < 2 then .ingest { eventId := 1, sessionId := "s1", eventType := .view } none none
  else .pass

set_option maxRecDepth 10000 in
/-- The second submission comes between the two writes of the first, and a pass after both. -/
theorem backed_of_unbroken_resubmitted :
    ∃ cfg, Reach backend (unbroken resubmitted)
        (system mixedBatch {} resubmitted (World.init 0)) cfg ∧
      cfg.world.hasKey 1 = true ∧ cfg.world.stream.added.length = 1 ∧
      cfg.world.events.length = 1 ∧ Backed mixedBatch cfg.world 1 := by
  obtain ⟨cfg, hreach, hrest, htest⟩ := exists_rest_of_run (M := backend)
    (π := unbroken resubmitted)
    (.start 0 :: .step 0 .ok :: .start 1 :: .step 1 .ok :: .step 1 .ok :: .step 0 .ok ::
      .start 2 :: List.replicate 12 (.step 2 .ok)) 3
    (system mixedBatch {} resubmitted (World.init 0))
    (fun cfg => cfg.world.hasKey 1 && decide (cfg.world.stream.added.length = 1 ∧
      cfg.world.events.length = 1))
    (fun _ => rfl) (by decide) (by decide +kernel)
  obtain ⟨hkey, hstores⟩ := Bool.and_eq_true_iff.mp htest
  obtain ⟨hadded, hevents⟩ := of_decide_eq_true hstores
  refine ⟨cfg, hreach, hkey, hadded, hevents, backed_of_unbroken mixedBatch (by decide +kernel) ?_
    ⟨rfl, rfl, rfl, rfl⟩ (by simp [World.hasKey, World.init]) hreach ?_ hkey⟩
  · intro i payload ip userAgent hjob
    by_cases hi : i < 2
    · simp only [resubmitted, if_pos hi, Job.ingest.injEq] at hjob
      obtain ⟨rfl, rfl, rfl⟩ := hjob
      exact ⟨rfl, by decide +kernel, by decide +kernel⟩
    · simp [resubmitted, hi] at hjob
  · intro i c k _ hthread
    have hi := hrest i
    rw [hthread] at hi
    cases hi

end EventAnalytics.Services
