import EventAnalytics.Api.Events
import EventAnalytics.Library.FirstWins
import EventAnalytics.Services.Phantom
import EventAnalytics.Workers.ClosedPeriods
import EventAnalytics.Workers.Payload
import EventAnalytics.Workers.Poison
import EventAnalytics.Workers.Visitors

/-! Whether the metrics depend on the ingest mode. The sync path stamps a row when its
request is received, the worker when it comes to the entry. -/
namespace EventAnalytics.Workers

open Library Library.Discipline Redis Db Services

/-- A call of `ingest_one` in the session of its request. -/
def ingestRequest (py : Python) (settings : Settings) (payload : EventCreate)
    (ip userAgent : Option String) : App EventIngestResult :=
  Api.getDb (ingestOne py settings payload ip userAgent)

/-- A request, with the time at which it is received. -/
structure Receipt where
  clock : Nat
  payload : EventCreate
  ip : Option String
  userAgent : Option String

def Receipt.row (py : Python) (r : Receipt) : EventRow :=
  syncRow py r.payload r.ip r.userAgent r.clock

/-- The requests one after the other, each at its time. -/
def serveAll (py : Python) (settings : Settings) : List Receipt → World → Option World
  | [], w => some w
  | r :: receipts, w =>
    ((ingestRequest py settings r.payload r.ip r.userAgent).run (effect 0)
      { w with clock := r.clock }).bind fun rw => serveAll py settings receipts rw.2

/-- Between requests no transaction is open, and every key is that of a stored event. -/
structure Serving (w : World) : Prop where
  uncommitted : w.uncommitted = []
  aborted : w.aborted 0 = false
  keys : ∀ e, w.idem e ≠ none → w.stored e = true

section Sync

variable {py : Python} {settings : Settings} {w w' : World} {payload : EventCreate}
  {ip userAgent : Option String}

theorem run_setNx (w : World) (payload : EventCreate) (httl : settings.idemTtlSeconds ≠ 0) :
    effect 0 w (.setNx payload.eventId settings.idemTtlSeconds) =
      if w.hasKey payload.eventId then some (.ok false, w)
      else some (.ok true, w.setKey payload.eventId .pending settings.idemTtlSeconds) := by
  simp only [effect, httl, if_false]

theorem run_ingestOne_known (py : Python) (ip userAgent : Option String)
    (httl : settings.idemTtlSeconds ≠ 0) (haborted : w.aborted 0 = false)
    (hkey : w.hasKey payload.eventId = true) :
    ∃ res, (ingestOne py settings payload ip userAgent).run (effect 0) w = some (.ok res, w) := by
  have hclaim := run_setNx w payload httl
  rw [if_pos hkey] at hclaim
  have hselect : effect 0 w (.selectEvent payload.eventId) =
      some (.ok (w.stored payload.eventId || w.ownsRow 0 payload.eventId), w) := by
    simp [effect, haborted]
  unfold ingestOne claimIdempotency alreadyInDb
  rw [Prog.run_perform_ok hclaim]
  simp only [Bool.not_false, if_true]
  rw [Prog.run_perform_ok hselect]
  cases w.stored payload.eventId || w.ownsRow 0 payload.eventId <;> exact ⟨_, rfl⟩

/-- What a request leaves to its commit when its key was not there. -/
structure Inserted (row : EventRow) (w w' : World) : Prop where
  events : w'.events = w.events
  uncommitted : w'.uncommitted = if w.stored row.eventId then [] else [(0, row)]
  aborted : w'.aborted 0 = false
  keys : ∀ e, w'.idem e ≠ none → e = row.eventId ∨ w.idem e ≠ none

theorem idem_setKey {e e' : UUID} {status : IdemStatus} {ttl : Nat}
    (h : (w.setKey e status ttl).idem e' ≠ none) : e' = e ∨ w.idem e' ≠ none := by
  by_cases he : e' = e
  · exact .inl he
  · simp only [World.setKey, he, if_false] at h
    exact .inr h

theorem run_ingestOne_new (py : Python) (ip userAgent : Option String)
    (hsync : settings.isAsyncIngest = false)
    (httl : settings.idemTtlSeconds ≠ 0) (h : Serving w)
    (hkey : w.hasKey payload.eventId = false) :
    ∃ res w', (ingestOne py settings payload ip userAgent).run (effect 0) w =
      some (.ok res, w') ∧ Inserted (syncRow py payload ip userAgent w.clock) w w' := by
  have hclaim := run_setNx w payload httl
  simp only [hkey, Bool.false_eq_true, if_false] at hclaim
  let w₁ := w.setKey payload.eventId .pending settings.idemTtlSeconds
  let row := syncRow py payload ip userAgent w.clock
  have hfree : w₁.ownsRow 0 row.eventId = false ∧ w₁.heldByOther 0 row.eventId = false := by
    simp [w₁, World.ownsRow, World.heldByOther, World.setKey, h.uncommitted]
  have hinsert : ∃ inserted w₂, effect 0 w₁ (.insertEvent row .request) =
      some (.ok inserted, w₂) ∧ Inserted row w w₂ := by
    have haborted : w₁.aborted 0 = false := h.aborted
    have hstored : w₁.stored row.eventId = w.stored row.eventId := rfl
    simp only [effect, haborted, Bool.false_eq_true, if_false, hfree, Bool.or_false, hstored]
    cases hs : w.stored row.eventId with
    | true =>
        refine ⟨false, w₁, rfl, rfl, ?_, h.aborted, fun e he => idem_setKey he⟩
        rw [if_pos hs]
        exact h.uncommitted
    | false =>
        refine ⟨true, _, rfl, rfl, ?_, h.aborted, fun e he => idem_setKey he⟩
        rw [hs]
        simp [w₁, World.setKey, h.uncommitted]
  obtain ⟨inserted, w₂, hinsert, hinserted⟩ := hinsert
  have hmark : ∃ w₃, effect 0 w₂ (.setXx payload.eventId settings.idemTtlSeconds) =
      some (.ok (), w₃) ∧ Inserted row w w₃ := by
    refine ⟨_, by simp only [effect, httl, if_false]; rfl, ?_⟩
    split
    · refine ⟨hinserted.events, hinserted.uncommitted, hinserted.aborted, fun e he => ?_⟩
      rcases idem_setKey he with rfl | hold
      · exact .inl rfl
      · exact hinserted.keys e hold
    · exact hinserted
  obtain ⟨w₃, hmark, hmarked⟩ := hmark
  have hnow : effect 0 w₁ .now = some (.ok w.clock, w₁) := rfl
  unfold ingestOne claimIdempotency
  rw [Prog.run_perform_ok hclaim]
  simp only [Bool.not_true, Bool.false_eq_true, if_false, hsync]
  unfold ingestSync markDone
  rw [Prog.run_perform_ok hnow, Prog.run_perform_ok hinsert, Prog.run_perform_ok hmark]
  cases inserted <;> exact ⟨_, w₃, rfl, hmarked⟩

theorem run_getDb {α : Type} {handler : App α} {a : α}
    (h : handler.run (effect 0) w = some (.ok a, w')) :
    (Api.getDb handler).run (effect 0) w = some (.ok a, (w'.commitTx 0).rollbackTx 0) := by
  have hcommit : effect 0 w' .commit = some (.ok (), w'.commitTx 0) := rfl
  have hrollback : effect 0 (w'.commitTx 0) .rollback =
      some (.ok (), (w'.commitTx 0).rollbackTx 0) := rfl
  have hbody : (handler >>= fun a => await .commit >>= fun _ => pure a).run (effect 0) w =
      some (.ok a, w'.commitTx 0) := by
    rw [Prog.run_bind_ok h, Prog.run_perform_ok hcommit]
    rfl
  unfold Api.getDb Db.getDb Db.withSession
  rw [Prog.run_bind_ok (Prog.run_tryExcept_ok hbody), Prog.run_perform_ok hrollback]
  rfl

theorem serving_committed (rows : List EventRow) (haborted : w.aborted 0 = false)
    (huncommitted : w.uncommitted = rows.map fun row => (0, row))
    (hkeys : ∀ e, w.idem e ≠ none → ∃ row ∈ w.events ++ rows, row.eventId = e) :
    ((w.commitTx 0).rollbackTx 0).events = w.events ++ rows ∧
      Serving ((w.commitTx 0).rollbackTx 0) := by
  have hevents : ((w.commitTx 0).rollbackTx 0).events = w.events ++ rows := by
    simp [World.rollbackTx, World.commitTx, World.ownRows, haborted, huncommitted,
      List.filter_map, Function.comp_def]
  refine ⟨hevents, ⟨?_, ?_, fun e he => ?_⟩⟩
  · simp [World.rollbackTx, World.commitTx, World.dropRows, huncommitted]
  · simp [World.rollbackTx]
  · rw [World.stored_iff, hevents]
    exact hkeys e he

theorem run_ingestRequest (py : Python) (payload : EventCreate) (ip userAgent : Option String)
    (hsync : settings.isAsyncIngest = false)
    (httl : settings.idemTtlSeconds ≠ 0) (h : Serving w) :
    ∃ res w', (ingestRequest py settings payload ip userAgent).run (effect 0) w =
        some (.ok res, w') ∧ Serving w' ∧
      w'.events = absorb EventRow.eventId w.events [syncRow py payload ip userAgent w.clock] := by
  have hknown : ∀ e, w.stored e = true ↔ e ∈ w.events.map EventRow.eventId := by
    intro e
    rw [World.stored_iff, List.mem_map]
  cases hkey : w.hasKey payload.eventId with
  | true =>
      have hstored : w.stored payload.eventId = true := by
        refine h.keys _ fun hnone => ?_
        simp [World.hasKey, hnone] at hkey
      obtain ⟨res, hrun⟩ := run_ingestOne_known py ip userAgent httl h.aborted hkey
      obtain ⟨hevents, hserving⟩ := serving_committed [] h.aborted h.uncommitted
        fun e he => by simpa [World.stored_iff] using h.keys e he
      refine ⟨res, _, run_getDb hrun, hserving, ?_⟩
      have hmem : (syncRow py payload ip userAgent w.clock).eventId ∈
          w.events.map EventRow.eventId := (hknown _).mp hstored
      rw [hevents, absorb, if_pos hmem]
      simp [absorb]
  | false =>
      obtain ⟨res, w₁, hrun, hinserted⟩ := run_ingestOne_new py ip userAgent hsync httl
        h hkey
      let row := syncRow py payload ip userAgent w.clock
      have huncommitted : w₁.uncommitted =
          (if w.stored row.eventId then [] else [row]).map fun row => (0, row) := by
        rw [hinserted.uncommitted]
        split <;> rfl
      have hkept : ∀ e, w₁.idem e ≠ none →
          ∃ r ∈ w₁.events ++ (if w.stored row.eventId then [] else [row]), r.eventId = e := by
        intro e he
        rw [hinserted.events]
        rcases hinserted.keys e he with rfl | hold
        · split
          · rename_i hstored
            simpa [World.stored_iff] using hstored
          · exact ⟨row, by simp, rfl⟩
        · obtain ⟨r, hr, hre⟩ := World.stored_iff.mp (h.keys e hold)
          exact ⟨r, List.mem_append_left _ hr, hre⟩
      obtain ⟨hevents, hserving⟩ := serving_committed _ hinserted.aborted huncommitted hkept
      refine ⟨res, _, run_getDb hrun, hserving, ?_⟩
      rw [hevents, hinserted.events, absorb]
      simp only [← hknown]
      split <;> simp [absorb, row, *]

/-- In sync mode the table keeps the first row of every event. -/
theorem serveAll_events (py : Python) (hsync : settings.isAsyncIngest = false)
    (httl : settings.idemTtlSeconds ≠ 0) (h : Serving w) (receipts : List Receipt) :
    ∃ w', serveAll py settings receipts w = some w' ∧
      w'.events = absorb EventRow.eventId w.events (receipts.map (Receipt.row py)) := by
  induction receipts generalizing w with
  | nil => exact ⟨w, rfl, rfl⟩
  | cons r receipts ih =>
      have hclocked : Serving { w with clock := r.clock } :=
        ⟨h.uncommitted, h.aborted, h.keys⟩
      obtain ⟨res, w₁, hrun, hserving, hevents⟩ := run_ingestRequest py r.payload r.ip
        r.userAgent hsync httl hclocked
      obtain ⟨w', hrest, hlast⟩ := ih hserving
      refine ⟨w', ?_, ?_⟩
      · rw [serveAll, hrun]
        exact hrest
      · rw [hlast, hevents, ← absorb_append]
        rfl

end Sync

/-- What has been received, in order, and the claims that are won and not yet followed
by an entry. -/
structure History where
  receipts : List Receipt
  claims : Nat → Option UUID

def historyRecorder (jobs : Nat → Job) : Recorder Cmd.Resp Exn World History where
  step i w c r _ h :=
    match c, r with
    | .setNx _ _, .ok claimed =>
      match jobs i with
      | .ingest payload ip userAgent =>
        { receipts := h.receipts ++ [⟨w.clock, payload, ip, userAgent⟩]
          claims := if claimed then setAt h.claims i (some payload.eventId) else h.claims }
      | .pass => h
    | .xadd _, _ => { h with claims := setAt h.claims i none }
    | _, _ => h
  crash _ _ h := h

/-- Nothing fails, and nobody else adds entries to the stream. -/
def smooth : BackendPolicy where
  step _ ch _ c := ch = .ok && !refused c
  crash := fun _ _ _ => false
  env
    | .tick _, _ => true
    | .produce _, _ => false

/-- To the metrics the row is the one that the sync path makes of the request. -/
def Receipt.agrees (r : Receipt) (row : EventRow) : Bool :=
  dayOf row.serverTs = dayOf r.clock && row.userId = r.payload.userId &&
    match row.eventType with
    | .str s => s = r.payload.eventType.value
    | _ => false

/-- The row agrees with the first request for its event. -/
def receivedAs (receipts : List Receipt) (row : EventRow) : Bool :=
  (receipts.find? fun r => r.payload.eventId = row.eventId).any fun r => r.agrees row

/-- Nothing fails, and what is inserted is what was first received, on the day on which
it was received. -/
def sameDay : Policy Cmd (World × History) Choice EnvAct where
  step i ch w c :=
    smooth.step i ch w.1 c &&
      match c with
      | .insertEvent row _ =>
        w.1.stored row.eventId || w.1.ownsRow i row.eventId || receivedAs w.2.receipts row
      | _ => true
  crash i w c := smooth.crash i w.1 c
  env e w := smooth.env e w.1

/-- No entry is lost, and only what is no event is dead-lettered. -/
def readable (py : Python) : Terms := ⟨True, fun fields => rowOf py fields = none⟩

/-- The pipeline from the stores `w₀` on: every event that has been received is stored,
in the stream or about to be, and the rows are what was received. -/
structure Underway (py : Python) (jobs : Nat → Job) (w₀ : World) (w : World × History) :
    Prop where
  custody : Custody py (readable py) w.1
  entries : ∀ fields ∈ w.1.stream.added, rowOf py fields ≠ none
  calm : ∀ i, w.1.aborted i = false
  base : w₀.events <+: w.1.events
  answered : ∀ e, w.1.hasKey e = true ∨ e ∈ w.2.receipts.map (fun r => r.payload.eventId) →
    w.1.stored e = true ∨ Known py w.1 e ∨ ∃ i, w.2.claims i = some e
  owner : ∀ i e, w.2.claims i = some e → (jobs i).event? = some e
  rows : ∀ row ∈ rowsInSight w.1, row ∈ w₀.events ∨
    w₀.stored row.eventId = false ∧ receivedAs w.2.receipts row = true

/-- Calls claim the event that they have received, one at a time, and enqueue it. -/
def requestDuty (py : Python) (jobs : Nat → Job) (i : Nat) (w : World × History) : Cmd → Prop
  | .setNx e _ => w.2.claims i = none ∧
      ∃ payload ip userAgent, jobs i = .ingest payload ip userAgent ∧ payload.eventId = e
  | .xadd data => rowOf py ⟨some data⟩ ≠ none ∧
      ∃ e, (jobs i).event? = some e ∧ eventIdOf py ⟨some data⟩ = some e
  | _ => True

section Async

variable {py : Python} {jobs : Nat → Job} {w₀ : World} {w : World × History} {w' : World}
  {i : Nat}

theorem receivedAs_append {receipts : List Receipt} {row : EventRow} (more : List Receipt)
    (h : receivedAs receipts row = true) : receivedAs (receipts ++ more) row = true := by
  unfold receivedAs at h ⊢
  rw [List.find?_append]
  cases hfirst : receipts.find? fun r => r.payload.eventId = row.eventId with
  | none => simp [hfirst] at h
  | some r => simpa [hfirst] using h

theorem Underway.keep (h : Underway py jobs w₀ w) (hcustody : Custody py (readable py) w')
    (hgrows : w.1.Grows w') (hadded : w'.stream.added = w.1.stream.added)
    (hcalm : ∀ i, w'.aborted i = false)
    (hkeys : ∀ e, w'.hasKey e = true → w.1.hasKey e = true ∨ Known py w' e)
    (hrows : ∀ row ∈ rowsInSight w', row ∈ rowsInSight w.1 ∨
      w.1.stored row.eventId = false ∧ receivedAs w.2.receipts row = true) :
    Underway py jobs w₀ (w', w.2) where
  custody := hcustody
  entries := by
    rw [hadded]
    exact h.entries
  calm := hcalm
  base := h.base.trans hgrows.events
  answered e he := by
    have hbefore : w.1.hasKey e = true ∨ e ∈ w.2.receipts.map (fun r => r.payload.eventId) →
        w'.stored e = true ∨ Known py w' e ∨ ∃ i, w.2.claims i = some e := fun hold =>
      (h.answered e hold).imp hgrows.stored fun hrest => hrest.imp_left (·.grows hgrows)
    rcases he with hkey | hreceived
    · rcases hkeys e hkey with hkey | hknown
      · exact hbefore (.inl hkey)
      · exact .inr (.inl hknown)
    · exact hbefore (.inr hreceived)
  owner := h.owner
  rows row hrow := by
    rcases hrows row hrow with hold | ⟨hnew, hreceived⟩
    · exact h.rows row hold
    · refine .inr ⟨?_, hreceived⟩
      by_contra hstored
      rw [Bool.not_eq_false] at hstored
      obtain ⟨r, hr, hre⟩ := World.stored_iff.mp hstored
      have : w.1.stored row.eventId = true := World.stored_iff.mpr ⟨r, h.base.subset hr, hre⟩
      simp [hnew] at this

theorem Underway.setNx (h : Underway py jobs w₀ w) {e : UUID} {ttl : Nat} {r : Except Exn Bool}
    (hduty : requestDuty py jobs i w (.setNx e ttl))
    (hexec : backend.exec i .ok w.1 (.setNx e ttl) = some (r, w'))
    (hcustody : Custody py (readable py) w') :
    Underway py jobs w₀ (w', (historyRecorder jobs).step i w.1 (.setNx e ttl) r w' w.2) := by
  obtain ⟨hnone, payload, ip, userAgent, hjob, rfl⟩ := hduty
  have hrows : ∀ receipt, ∀ row ∈ rowsInSight w.1, row ∈ w₀.events ∨
      w₀.stored row.eventId = false ∧ receivedAs (w.2.receipts ++ [receipt]) row = true := by
    intro receipt row hrow
    exact (h.rows row hrow).imp_right fun hnew => ⟨hnew.1, receivedAs_append _ hnew.2⟩
  rcases exec_setNx hexec with ⟨rfl, hkey, -, rfl⟩ | ⟨rfl, -, -, rfl⟩ | ⟨exc, rfl, rfl⟩ |
    ⟨exc, -, hch, -, -⟩
  · simp only [historyRecorder, hjob, Bool.false_eq_true, if_false]
    refine ⟨hcustody, h.entries, h.calm, h.base, fun e he => ?_, h.owner, hrows _⟩
    simp only [List.map_append, List.map_cons, List.map_nil, List.mem_append,
      List.mem_singleton] at he
    rcases he with he | he | rfl
    · exact h.answered e (.inl he)
    · exact h.answered e (.inr he)
    · exact h.answered _ (.inl hkey)
  · simp only [historyRecorder, hjob, if_true]
    refine ⟨hcustody, h.entries, h.calm, h.base, fun e he => ?_,
      owner_setAt h.owner fun e he => ?_, hrows _⟩
    · by_cases heq : e = payload.eventId
      · subst heq
        exact .inr (.inr ⟨i, setAt_self _ _ _⟩)
      · have hbefore : w.1.hasKey e = true ∨
            e ∈ w.2.receipts.map (fun r => r.payload.eventId) := by
          rw [World.hasKey_setKey_ne heq] at he
          simpa [heq] using he
        exact claim_taken hnone (h.answered e hbefore)
    · cases he
      rw [hjob]
      rfl
  · exact h
  · cases hch

theorem Underway.xadd (h : Underway py jobs w₀ w) {data : String} {r : Except Exn Nat}
    (hduty : requestDuty py jobs i w (.xadd data))
    (hexec : backend.exec i .ok w.1 (.xadd data) = some (r, w'))
    (hcustody : Custody py (readable py) w') :
    Underway py jobs w₀ (w', (historyRecorder jobs).step i w.1 (.xadd data) r w' w.2) := by
  obtain ⟨hreadable, mine, hmine, hdata⟩ := hduty
  have hgrows := exec_grows hexec
  cases hexec
  have hknown : Known py { w.1 with stream := (w.1.stream.xadd ⟨some data⟩).2 } mine :=
    ⟨w.1.stream.added.length, ⟨some data⟩, by simp [Stream.xadd], hdata⟩
  have hclaim (e : UUID) (he : w.2.claims i = some e) : e = mine :=
    Option.some.inj ((h.owner i e he).symm.trans hmine)
  refine ⟨hcustody, fun fields hfields => ?_, h.calm, h.base, fun e he => ?_,
    owner_setAt h.owner fun e he => ?_, h.rows⟩
  · rcases List.mem_append.mp hfields with hfields | hfields
    · exact h.entries fields hfields
    · rwa [List.mem_singleton.mp hfields]
  · apply claim_settled hclaim hknown
    exact (h.answered e he).imp_right fun hrest => hrest.imp_left fun hknown' =>
      hknown'.grows hgrows
  · cases he

theorem rows_exec {w w' : World} {c : Cmd} {r : Except Exn c.Resp}
    (hcalm : ∀ i, w.aborted i = false) (hexec : backend.exec i .ok w c = some (r, w')) :
    (∀ i, w'.aborted i = false) ∧ ∀ row ∈ rowsInSight w', row ∈ rowsInSight w ∨
      w.stored row.eventId = false ∧ w.ownsRow i row.eventId = false ∧
        ∃ origin, c = .insertEvent row origin := by
  have hended : ∀ j, setAt w.aborted i false j = false := by
    intro j
    by_cases hji : j = i
    · rw [hji, setAt_self]
    · rw [setAt_ne _ _ hji]
      exact hcalm j
  have hdropped : ∀ row, row ∈ (w.dropRows i).map Prod.snd → row ∈ rowsInSight w := by
    intro row hrow
    obtain ⟨jr, hjr, rfl⟩ := List.mem_map.mp hrow
    exact List.mem_append_right _ (List.mem_map_of_mem (List.mem_filter.mp hjr).1)
  rcases exec_visits hexec with hsame | ⟨day, u, -, -, rfl⟩ | ⟨day, seconds, -, rfl⟩ |
    ⟨row, origin, rfl, -, rfl⟩ | ⟨hch, -, -⟩ | ⟨-, rfl⟩ | ⟨-, rfl⟩
  · refine ⟨fun j => by rw [hsame.aborted]; exact hcalm j, fun row hrow => .inl ?_⟩
    rwa [rowsInSight, hsame.events, hsame.uncommitted] at hrow
  · exact ⟨hcalm, fun _ hrow => .inl hrow⟩
  · exact ⟨hcalm, fun _ hrow => .inl hrow⟩
  · refine ⟨hcalm, fun row' hrow => ?_⟩
    simp only [rowsInSight, List.map_append, List.map_cons, List.map_nil, List.mem_append,
      List.mem_singleton, ← or_assoc] at hrow
    rcases hrow with hold | rfl
    · exact .inl (List.mem_append.mpr hold)
    · rcases exec_insertEvent hexec with ⟨-, -, -, hstored, howned, -, -⟩ | ⟨-, -, -, -, hw⟩ |
        ⟨-, hw, -⟩ | ⟨-, -, hch⟩
      · exact .inr ⟨hstored, howned, origin, rfl⟩
      · have := congrArg (fun w => w.uncommitted.length) hw
        simp at this
      · have := congrArg (fun w => w.uncommitted.length) hw
        simp at this
      · cases hch
  · cases hch
  · refine ⟨hended, fun row hrow => .inl ?_⟩
    simp only [rowsInSight, World.commitTx, hcalm i, Bool.false_eq_true, if_false,
      List.mem_append, or_assoc] at hrow
    rcases hrow with hold | hown | hdrop
    · exact List.mem_append_left _ hold
    · exact mem_rowsInSight.mpr (.inr ⟨i, hown⟩)
    · exact hdropped row hdrop
  · refine ⟨hended, fun row hrow => .inl ?_⟩
    rcases List.mem_append.mp hrow with hold | hdrop
    · exact List.mem_append_left _ hold
    · exact hdropped row hdrop

theorem added_exec {w w' : World} {ch : Choice} {c : Cmd} {r : Except Exn c.Resp}
    (hc : ∀ data, c ≠ .xadd data) (hexec : backend.exec i ch w c = some (r, w')) :
    w'.stream.added = w.stream.added := by
  by_cases hquiet : c.quiet = true
  · rw [(exec_quiet hquiet hexec).stream]
  · cases c <;> simp only [Cmd.quiet, not_true_eq_false] at hquiet
    case xadd data => exact absurd rfl (hc data)
    case insertEvent row origin =>
      rcases exec_insertEvent hexec with ⟨-, -, -, -, -, -, rfl⟩ | ⟨-, -, -, -, rfl⟩ |
        ⟨-, rfl, -⟩ | ⟨-, rfl, -⟩ <;> rfl
    case selectEvent e => rcases exec_selectEvent hexec with rfl | ⟨rfl, -⟩ <;> rfl
    case commit => rcases exec_commit hexec with rfl | ⟨rfl, -⟩ <;> rfl
    case rollback =>
      rw [exec_rollback hexec]
      rfl
    all_goals rcases exec_stream rfl rfl rfl hexec with ⟨rfl, -⟩ | ⟨rfl, -⟩ <;> rfl

theorem Underway.exec (h : Underway py jobs w₀ w) {ch : Choice} {c : Cmd} {r : Except Exn c.Resp}
    (hadm : sameDay.step i ch w c = true) (hduty : duty py (readable py) w.1 c)
    (hrequest : requestDuty py jobs i w c) (hexec : backend.exec i ch w.1 c = some (r, w')) :
    Underway py jobs w₀ (w', (historyRecorder jobs).step i w.1 c r w' w.2) := by
  have hcustody := h.custody.exec hduty hexec
  obtain ⟨hsmooth, hreceived⟩ := Bool.and_eq_true_iff.mp hadm
  obtain rfl : ch = .ok := of_decide_eq_true (Bool.and_eq_true_iff.mp hsmooth).1
  obtain ⟨hcalm, hrows⟩ := rows_exec h.calm hexec
  cases c with
  | setNx e ttl => exact h.setNx hrequest hexec hcustody
  | xadd data => exact h.xadd hrequest hexec hcustody
  | _ =>
      refine h.keep hcustody (exec_grows hexec) (added_exec (by rintro data ⟨⟩) hexec) hcalm
        (fun e => hasKey_or_known hduty (by rintro e ttl ⟨⟩) hexec) fun row hrow => ?_
      refine (hrows row hrow).imp_right ?_
      rintro ⟨hstored, howned, origin, hc⟩
      first
        | (cases hc
           simpa [hstored, howned] using hreceived)
        | cases hc

theorem Underway.env (h : Underway py jobs w₀ w) {act : EnvAct}
    (hadm : smooth.env act w.1 = true) (henv : backend.env act w.1 = some w') :
    Underway py jobs w₀ (w', w.2) := by
  cases act with
  | tick ms =>
      refine h.keep (h.custody.env henv) (env_frame henv 0).toGrows ?_ ?_ ?_ ?_
      · cases henv
        rfl
      · cases henv
        exact h.calm
      · cases henv
        exact fun e he => .inl (World.hasKey_of_tick he)
      · cases henv
        exact fun row hrow => .inl hrow
  | produce entry => simp [smooth] at hadm

end Async

def pipeline (py : Python) (jobs : Nat → Job) (w₀ : World) :
    Discipline Cmd.Resp Exn (World × History) Choice EnvAct where
  machine := backend.recorded (historyRecorder jobs)
  policy := sameDay
  inv := Underway py jobs w₀
  rely := fun i w w' => w.1.Frame i w'.1 ∧ w'.2.claims i = w.2.claims i
  duty := fun i w c => duty py (readable py) w.1 c ∧ requestDuty py jobs i w c
  rely_refl := fun i w => ⟨.refl i w.1, rfl⟩
  rely_trans := fun _ _ _ _ hab hbc => ⟨hab.1.trans hbc.1, hbc.2.trans hab.2⟩
  step_sound := by
    intro i ch w c r w' hadm hinv hduty hexec
    obtain ⟨hbackend, hhistory⟩ := Machine.exec_recorded hexec
    obtain ⟨w', history⟩ := w'
    dsimp only at hhistory
    subst hhistory
    refine ⟨hinv.exec hadm hduty.1 hduty.2 hbackend, fun j hj => ⟨exec_frame hj hbackend, ?_⟩⟩
    simp only [historyRecorder]
    split
    · split
      · split
        · exact setAt_ne _ _ hj
        · rfl
      · rfl
    · exact setAt_ne _ _ hj
    · rfl
  crash_sound := fun i w c hadm _ => by simp [sameDay, smooth] at hadm
  env_sound := by
    intro act w w' hadm hinv henv
    obtain ⟨w₁, hbackend, rfl⟩ := Option.map_eq_some_iff.mp henv
    exact ⟨hinv.env hadm hbackend, fun j => ⟨env_frame hbackend j, rfl⟩⟩

def untroubled : BackendPolicy where
  step i ch w c :=
    ch = .ok && !refused c &&
      match c with
      | .insertEvent .. => !w.aborted i
      | _ => true
  crash := fun _ _ _ => false
  env := fun _ _ => true

theorem readable_respected (py : Python) (settings : Settings) (i : Nat) :
    (readable py).Respected py settings untroubled i where
  gentle := by
    intro _ w row origin hadm
    simp [untroubled] at hadm
  invalid := fun _ h => h
  rejected := by
    intro ch w w' id n fields make serverTs e hadm hexec _ _ _
    simp only [untroubled, Bool.and_eq_true, decide_eq_true_eq, Bool.not_eq_true'] at hadm
    obtain ⟨⟨rfl, -⟩, haborted⟩ := hadm
    rcases exec_insertEvent hexec with ⟨hr, -⟩ | ⟨hr, -⟩ | ⟨-, -, hch⟩ | ⟨-, -, hch⟩
    · cases hr
    · cases hr
    · simp [haborted] at hch
    · cases hch
  quiet := by
    intro ch w w' c e hquiet hadm hexec
    simp only [untroubled, Bool.and_eq_true, decide_eq_true_eq, Bool.not_eq_true'] at hadm
    obtain ⟨⟨rfl, hrefused⟩, -⟩ := hadm
    obtain ⟨a, w₁, heffect⟩ := effect_redis (i := i) (w := w) hquiet hrefused
    cases heffect.symm.trans hexec

section Jobs

variable {py : Python} {settings : Settings} {jobs : Nat → Job} {w₀ : World}
  {w : World × History} {i : Nat}

/-- The thread has no claim of its event open. -/
def Unclaimed {α : Type} (jobs : Nat → Job) (i : Nat) (_ : Outcome Exn α) (w : World × History) :
    Prop :=
  ∀ e, (jobs i).event? = some e → w.2.claims i = none

theorem wp_passUnderway (hjob : jobs i = .pass) (hinv : Underway py jobs w₀ w) :
    (pipeline py jobs w₀).wp i (Job.run py settings .pass) (Unclaimed jobs i) w := by
  have hpass : (custody py (readable py) untroubled).wp i (Job.run py settings .pass)
      (ends (fun _ _ => True) fun _ _ => True) w.1 :=
    wp_seq (wp_processEventStream (readable_respected py settings i)) fun _ _ _ => trivial
  refine wp_mono (fun _ _ _ e he => by simp [hjob, Job.event?] at he) (wp_recorded_of_inv
    (D := custody py (readable py) untroubled) (E := pipeline py jobs w₀)
    (R := historyRecorder jobs) rfl ?_ ?_ ?_ ?_ hinv hpass)
  · intro ch w c hinv hadm
    have hsmooth : smooth.step i ch w.1 c = true := (Bool.and_eq_true_iff.mp hadm).1
    refine Bool.and_eq_true_iff.mpr ⟨hsmooth, ?_⟩
    cases c <;> simp [hinv.calm i]
  · intro w c hadm
    simp [pipeline, sameDay, smooth] at hadm
  · exact fun _ _ hlater => ⟨hlater.1.custody, hlater.2.1⟩
  · intro w c _ hduty
    refine ⟨hduty.2, ?_⟩
    have hofPass := hduty.1
    cases c <;> trivial

theorem wp_unclaimedUnderway {α : Type} {c : Cmd} {f : c.Resp → App α}
    {Q : Outcome Exn α → World × History → Prop}
    (hrecord : ∀ w r w' history, ((historyRecorder jobs).step i w c r w' history).claims =
      history.claims)
    (hduty : duty py (readable py) w.1 c) (hrequest : requestDuty py jobs i w c)
    (hnone : w.2.claims i = none)
    (hfailed : ∀ o w', (∀ a, o ≠ .ok a) → w'.2.claims i = none → Q o w')
    (hf : ∀ a w', w'.2.claims i = none → (pipeline py jobs w₀).wp i (f a) Q w') :
    (pipeline py jobs w₀).wp i (await c >>= f) Q w := by
  have hstill : ∀ ch r w₁ w', (backend.recorded (historyRecorder jobs)).exec i ch w c =
      some (r, w₁) → (pipeline py jobs w₀).Later i w₁ w' → w'.2.claims i = none := by
    intro ch r w₁ w' hexec hlater
    rw [hlater.2.2, (Machine.exec_recorded hexec).2, hrecord]
    exact hnone
  refine wp_perform_bind ⟨hduty, hrequest⟩
    (fun _ w' hlater => hfailed _ w' (by simp) (hlater.2.2.trans hnone)) ?_ ?_
  · exact fun ch e w₁ _ hexec w' hlater =>
      hfailed _ w' (by simp) (hstill ch _ w₁ w' hexec hlater)
  · exact fun ch a w₁ _ hexec w' hlater => hf a w' (hstill ch _ w₁ w' hexec hlater)

/-- What the worker makes of the entry that a request adds. -/
structure Enqueued (py : Python) (payload : EventCreate) (ip userAgent : Option String) : Prop where
  session : 1 ≤ payload.sessionId.length
  codec : Codec py payload (asyncPayload py payload ip userAgent)

theorem wp_ingestUnderway (hasync : settings.isAsyncIngest = true) {payload : EventCreate}
    {ip userAgent : Option String} (hjob : jobs i = .ingest payload ip userAgent)
    (hrow : rowOf py ⟨some (py.dumps (asyncPayload py payload ip userAgent))⟩ ≠ none)
    (hreadable : eventIdOf py ⟨some (py.dumps (asyncPayload py payload ip userAgent))⟩ =
      some payload.eventId) (hnone : w.2.claims i = none) :
    (pipeline py jobs w₀).wp i (ingestOne py settings payload ip userAgent)
      (fun _ w => w.2.claims i = none) w := by
  have hmine : (jobs i).event? = some payload.eventId := by rw [hjob]; rfl
  unfold ingestOne claimIdempotency
  refine wp_perform_bind ⟨trivial, hnone, payload, ip, userAgent, hjob, rfl⟩
    (fun _ w' hlater => hlater.2.2.trans hnone) ?_ ?_
  · intro ch e w₁ _ hexec w' hlater
    rw [hlater.2.2, (Machine.exec_recorded hexec).2]
    exact hnone
  · intro ch claimed w₁ _ hexec w' hlater
    have hhistory := (Machine.exec_recorded hexec).2
    cases claimed with
    | false =>
        have hnone' : w'.2.claims i = none := by
          rw [hlater.2.2, hhistory]
          simp only [historyRecorder, hjob, Bool.false_eq_true, if_false]
          exact hnone
        simp only [Bool.not_false, if_true, alreadyInDb]
        refine wp_unclaimedUnderway (fun _ _ _ _ => rfl) trivial trivial hnone'
          (fun _ _ _ hw => hw) fun found w hw => ?_
        cases found <;> exact hw
    | true =>
        simp only [Bool.not_true, Bool.false_eq_true, if_false, hasync, if_true, Mq.enqueueEvent]
        have hended : ∀ ch r w₂ w'', (backend.recorded (historyRecorder jobs)).exec i ch w'
            (.xadd (py.dumps (asyncPayload py payload ip userAgent))) = some (r, w₂) →
            (pipeline py jobs w₀).Later i w₂ w'' → w''.2.claims i = none := by
          intro ch r w₂ w'' hexec hlater
          rw [hlater.2.2, (Machine.exec_recorded hexec).2]
          simp [historyRecorder]
        refine wp_perform_bind ⟨trivial, hrow, payload.eventId, hmine, hreadable⟩
          (fun hcrash => ?_) ?_ ?_
        · simp [pipeline, sameDay, smooth] at hcrash
        · exact fun ch e w₂ _ hexec w'' hlater => hended ch _ w₂ w'' hexec hlater
        · exact fun ch a w₂ _ hexec w'' hlater => hended ch _ w₂ w'' hexec hlater

theorem wp_request {α : Type} {handler : App α} (hhandler :
      (pipeline py jobs w₀).wp i handler (fun _ w => w.2.claims i = none) w) :
    (pipeline py jobs w₀).wp i (Api.getDb handler) (fun _ w => w.2.claims i = none) w := by
  have hbody : (pipeline py jobs w₀).wp i
      (handler >>= fun a => await .commit >>= fun _ => pure a)
      (fun _ w => w.2.claims i = none) w := by
    refine wp_bind (wp_mono (fun o w' hw => ?_) hhandler)
    cases o with
    | ok a =>
        exact wp_unclaimedUnderway (c := .commit) (fun _ _ _ _ => rfl) trivial trivial hw
          (fun _ _ _ hw => hw) fun _ _ hw => hw
    | error e => exact hw
    | crashed => exact hw
  unfold Api.getDb Db.getDb Db.withSession
  refine wp_bind (wp_tryExcept (wp_mono (fun o w' hw => ?_) hbody))
  cases o with
  | ok a =>
      exact wp_unclaimedUnderway (c := .rollback) (fun _ _ _ _ => rfl) trivial trivial hw
        (fun _ _ _ hw => hw) fun _ _ hw => hw
  | error e =>
      refine wp_unclaimedUnderway (c := .rollback) (fun _ _ _ _ => rfl) trivial trivial hw
        (fun o w' ho hw => ?_) fun _ _ hw => hw
      cases o with
      | ok a => exact absurd rfl (ho a)
      | error e => exact hw
      | crashed => exact hw
  | crashed => exact hw

end Jobs

/-- An events table, with nothing computed from it. -/
def tableOf (events : List EventRow) : MetricsState :=
  ({ clock := 0, events := events, rows := fun _ => none, cache := fun _ => none, written := [],
     locks := [], aborted := fun _ => false }, fun _ => none)

/-- What a computation for the period returns: the daily active users, or the count of
every step of the funnel. -/
def computedOver (settings : Settings) (events : List EventRow) : Period → Option (List Nat)
  | .dau d =>
    ((metricsRequest (computeDau settings d)).run metricsStep (tableOf events)).bind fun r =>
      r.1.toOption.map fun value => [value]
  | .funnel a b =>
    ((metricsRequest (computeFunnel settings a b)).run metricsStep (tableOf events)).bind fun r =>
      r.1.toOption.map (countsOf (.funnel a b))

/-- The metrics cannot tell the rows apart. -/
structure Alike (row row' : EventRow) : Prop where
  day : dayOf row.serverTs = dayOf row'.serverTs
  userId : row.userId = row'.userId
  eventType : row.eventType = row'.eventType

section Metrics

variable {py : Python} {settings : Settings} {row row' : EventRow}
  {rows rows' : List EventRow} {p : Period}

theorem Alike.refl (row : EventRow) : Alike row row := ⟨rfl, rfl, rfl⟩

theorem Alike.symm (h : Alike row row') : Alike row' row :=
  ⟨h.day.symm, h.userId.symm, h.eventType.symm⟩

theorem alike_of_agrees {r : Receipt} (h : r.agrees row = true) : Alike row (r.row py) := by
  simp only [Receipt.agrees, Bool.and_eq_true, decide_eq_true_eq] at h
  obtain ⟨⟨hday, huser⟩, htype⟩ := h
  refine ⟨hday, huser, ?_⟩
  split at htype
  · rename_i s hs
    rw [hs, of_decide_eq_true htype]
    rfl
  · cases htype

theorem usersOf_alike (h : Alike row row') {q : Int × Int × Option String}
    (hq : q ∈ queriesOf p) : usersOf q row = usersOf q row' := by
  have hbounds : ∃ a b t, q = (midnight a, midnight b, t) := by
    cases p with
    | dau d => exact ⟨d, d + 1, none, by simpa [queriesOf] using hq⟩
    | funnel a b =>
        obtain ⟨step, -, rfl⟩ := List.mem_map.mp hq
        exact ⟨a, b + 1, some step, rfl⟩
  obtain ⟨a, b, t, rfl⟩ := hbounds
  simp only [usersOf, userIn, ← not_le, midnight_le, h.day, h.userId, h.eventType]

theorem exactCounts_alike (h : ∀ row ∈ rows, ∃ row' ∈ rows', Alike row' row)
    (h' : ∀ row ∈ rows', ∃ row' ∈ rows, Alike row' row) :
    exactCounts p rows = exactCounts p rows' := by
  apply List.map_congr_left
  intro q hq
  apply distinct_congr
  · intro row hrow
    obtain ⟨row', hrow', halike⟩ := h row hrow
    exact ⟨row', hrow', usersOf_alike halike hq⟩
  · intro row hrow
    obtain ⟨row', hrow', halike⟩ := h' row hrow
    exact ⟨row', hrow', usersOf_alike halike hq⟩

theorem computedOver_dau (settings : Settings) (rows : List EventRow) (d : Day) :
    computedOver settings rows (.dau d) =
      if settings.cacheTtlDau = 0 then none else some (exactCounts (.dau d) rows) := by
  by_cases httl : settings.cacheTtlDau = 0
  · simp [httl, computedOver, metricsRequest, getDb, withSession, computeDau, Prog.perform,
      Prog.run, Prog.ofExcept, Prog.tryExcept, metricsStep, Machine.recorded, warehouse,
      metricsEffect, snapshotRecorder, tableOf, Warehouse.upsert, Except.toOption]
  · obtain ⟨row, hexact, hrun⟩ := run_computeDau (tableOf rows).2 (w := (tableOf rows).1)
      ⟨rfl, rfl, rfl⟩ httl d
    have hcounts : [row.value] = exactCounts (.dau d) rows := hexact
    rw [if_neg httl, computedOver, metricsRequest, getDb, run_session hrun, ← hcounts]
    rfl

theorem computedOver_funnel (settings : Settings) (rows : List EventRow) (a b : Day) :
    computedOver settings rows (.funnel a b) =
      if settings.cacheTtlFunnel = 0 then none else some (exactCounts (.funnel a b) rows) := by
  by_cases httl : settings.cacheTtlFunnel = 0
  · simp [httl, computedOver, metricsRequest, getDb, withSession, computeFunnel, Prog.perform,
      Prog.run, Prog.ofExcept, Prog.tryExcept, metricsStep, Machine.recorded, warehouse,
      metricsEffect, snapshotRecorder, tableOf, Warehouse.upsert, Except.toOption]
  · obtain ⟨row, hexact, hrun⟩ := run_computeFunnel (tableOf rows).2 (w := (tableOf rows).1)
      ⟨rfl, rfl, rfl⟩ httl a b
    have hcounts : countsOf (.funnel a b) row = exactCounts (.funnel a b) rows := hexact
    rw [if_neg httl, computedOver, metricsRequest, getDb, run_session hrun, ← hcounts]
    rfl

theorem computedOver_alike (settings : Settings)
    (h : ∀ row ∈ rows, ∃ row' ∈ rows', Alike row' row)
    (h' : ∀ row ∈ rows', ∃ row' ∈ rows, Alike row' row) (p : Period) :
    computedOver settings rows p = computedOver settings rows' p := by
  cases p with
  | dau d => rw [computedOver_dau, computedOver_dau, exactCounts_alike h h']
  | funnel a b => rw [computedOver_funnel, computedOver_funnel, exactCounts_alike h h']

end Metrics

/-- Stores at the start: nothing has come to the stream, no key is set and no session
is open. Events may be stored. -/
structure Unused (w : World) : Prop extends Fresh w where
  added : w.stream.added = []
  keys : ∀ e, w.idem e = none
  aborted : ∀ i, w.aborted i = false

def Drained (w : World) : Prop :=
  ∀ id, ¬ w.stream.Undelivered id ∧ ¬ w.stream.IsPending id

def serve (py : Python) (settings : Settings) : Job → App Unit
  | .pass => Job.run py settings .pass
  | .ingest payload ip userAgent => do
    let _ ← ingestRequest py settings payload ip userAgent
    pure ()

def underway (py : Python) (settings : Settings) (jobs : Nat → Job) (w : World) :
    Config Cmd.Resp Exn (World × History) Unit :=
  ⟨(w, ⟨[], fun _ => none⟩), fun i => .ready (serve py settings (jobs i))⟩

section Runs

variable {py : Python} {settings : Settings} {jobs : Nat → Job} {w₀ : World}
  {w : World × History} {cfg : Config Cmd.Resp Exn (World × History) Unit}

theorem Unused.underway (h : Unused w₀) (py : Python) (jobs : Nat → Job) :
    Underway py jobs w₀ (w₀, ⟨[], fun _ => none⟩) where
  custody := h.toFresh.custody py (readable py)
  entries := by simp [h.added]
  calm := h.aborted
  base := List.prefix_refl _
  answered e he := by simp [World.hasKey, h.keys] at he
  owner := by simp
  rows row hrow := .inl (by simpa [rowsInSight, h.uncommitted] using hrow)

theorem Unused.serving (h : Unused w₀) : Serving w₀ :=
  ⟨h.uncommitted, h.aborted 0, fun e he => absurd (h.keys e) he⟩

theorem Enqueued.rowOf_ne {payload : EventCreate} {ip userAgent : Option String}
    (h : Enqueued py payload ip userAgent) :
    rowOf py ⟨some (py.dumps (asyncPayload py payload ip userAgent))⟩ ≠ none := by
  unfold rowOf
  rw [parseFields_asyncPayload h.codec]
  simp [no_parse_error, event_id_truthy h.codec, decodeEvent_asyncData h.session h.codec]

theorem Enqueued.eventIdOf_eq {payload : EventCreate} {ip userAgent : Option String}
    (h : Enqueued py payload ip userAgent) :
    eventIdOf py ⟨some (py.dumps (asyncPayload py payload ip userAgent))⟩ =
      some payload.eventId :=
  eventIdOf_asyncPayload ⟨h.codec.loads_dumps, h.codec.dumps_ne, (h.codec.uuid _ (.inl rfl)).2⟩

theorem wp_serve (hasync : settings.isAsyncIngest = true)
    (hjobs : ∀ i payload ip userAgent, jobs i = .ingest payload ip userAgent →
      Enqueued py payload ip userAgent) (i : Nat) (hinv : Underway py jobs w₀ w)
    (hnone : w.2.claims i = none) :
    (pipeline py jobs w₀).wp i (serve py settings (jobs i)) (Unclaimed jobs i) w := by
  cases hjob : jobs i with
  | pass => exact wp_passUnderway hjob hinv
  | ingest payload ip userAgent =>
      have henqueued := hjobs i payload ip userAgent hjob
      refine wp_bind (wp_mono (fun o w' hw => ?_) (wp_request
        (wp_ingestUnderway hasync hjob henqueued.rowOf_ne henqueued.eventIdOf_eq hnone)))
      cases o <;> exact fun _ _ => hw

theorem claims_at_rest (hasync : settings.isAsyncIngest = true)
    (hjobs : ∀ i payload ip userAgent, jobs i = .ingest payload ip userAgent →
      Enqueued py payload ip userAgent) (hunused : Unused w₀)
    (hreach : Reach (backend.recorded (historyRecorder jobs)) sameDay
      (underway py settings jobs w₀) cfg)
    (hrest : ∀ i, (cfg.threads i).inProgress = false) :
    Underway py jobs w₀ cfg.world ∧ ∀ i, cfg.world.2.claims i = none := by
  have hstart : (pipeline py jobs w₀).Keeps (Unclaimed jobs) (underway py settings jobs w₀) :=
    keeps_ready (hunused.underway py jobs) _ fun i w' hlater =>
      wp_serve hasync hjobs i hlater.1 (hlater.2.2.trans rfl)
  have hkeeps := hstart.reach hreach
  have hinv : Underway py jobs w₀ cfg.world := hkeeps.inv
  refine ⟨hinv, fun i => ?_⟩
  by_contra hopen
  obtain ⟨e, he⟩ := Option.ne_none_iff_exists'.mp hopen
  apply hopen
  rcases hkeeps.atRest (hrest i) with ⟨p, hready⟩ | ⟨o, hended⟩
  · exact (hstart.ready hreach hready).2
  · exact hended e (hinv.owner i e he)

theorem Underway.stored_of_known (h : Underway py jobs w₀ w) (hdrained : Drained w.1) {e : UUID}
    (hknown : Known py w.1 e) : w.1.stored e = true := by
  obtain ⟨id, fields, hfields, he⟩ := hknown
  obtain ⟨hundelivered, hpending⟩ := hdrained id
  rcases h.custody.accounted trivial id (List.getElem?_eq_some_iff.mp hfields).1 with
    hplace | hplace | ⟨d, hd, rfl, -⟩ | ⟨fields', e', hfields', he', hstored⟩
  · exact absurd hplace hundelivered
  · exact absurd hplace hpending
  · obtain ⟨fields', hfields', hblame⟩ := h.custody.blamed d hd
    exact absurd hblame (h.entries fields' (List.mem_of_getElem? hfields'))
  · cases hfields.symm.trans hfields'
    cases he.symm.trans he'
    exact hstored

theorem Underway.alike (h : Underway py jobs w₀ w)
    (hstored : ∀ r ∈ w.2.receipts, w.1.stored r.payload.eventId = true) {rows : List EventRow}
    (hrows : rows = absorb EventRow.eventId w₀.events (w.2.receipts.map (Receipt.row py))) :
    (∀ row ∈ w.1.events, ∃ row' ∈ rows, Alike row' row) ∧
      ∀ row ∈ rows, ∃ row' ∈ w.1.events, Alike row' row := by
  subst hrows
  have hfind : ∀ e, (w.2.receipts.map (Receipt.row py)).find? (fun row => row.eventId = e) =
      (w.2.receipts.find? fun r => r.payload.eventId = e).map (Receipt.row py) := by
    intro e
    rw [List.find?_map]
    rfl
  have hnew : ∀ {e}, w₀.stored e = false ↔ e ∉ w₀.events.map EventRow.eventId := by
    intro e
    rw [← Bool.not_eq_true, World.stored_iff, List.mem_map]
  constructor
  · intro row hrow
    rcases h.rows row (List.mem_append_left _ hrow) with hold | ⟨hunstored, hreceived⟩
    · exact ⟨row, mem_absorb_of_mem _ hold, .refl row⟩
    · obtain ⟨r, hr, hagrees⟩ := (Option.any_eq_true _ _).mp hreceived
      refine ⟨r.row py, mem_absorb_of_find? (hnew.mp hunstored) ?_, (alike_of_agrees hagrees).symm⟩
      rw [hfind, hr]
      rfl
  · intro row hrow
    rcases mem_absorb_find? hrow with hold | ⟨hunknown, hfirst⟩
    · exact ⟨row, h.base.subset hold, .refl row⟩
    · rw [hfind] at hfirst
      obtain ⟨r, hr, rfl⟩ := Option.map_eq_some_iff.mp hfirst
      obtain ⟨row', hrow', hid⟩ := World.stored_iff.mp (hstored r (List.mem_of_find?_eq_some hr))
      refine ⟨row', hrow', ?_⟩
      rcases h.rows row' (List.mem_append_left _ hrow') with hold | ⟨-, hreceived⟩
      · exact absurd (List.mem_map.mpr ⟨row', hold, hid⟩) hunknown
      · rw [receivedAs, hid] at hreceived
        have hr' : (w.2.receipts.find? fun r' => r'.payload.eventId = r.payload.eventId) =
          some r := hr
        rw [hr'] at hreceived
        exact alike_of_agrees hreceived

end Runs

/-- When every row is inserted on the day on which its event was first received, the
drained pipeline has the metrics of the sync mode. -/
theorem same_metrics_of_sameDay (py : Python) {settings settings' : Settings}
    (hasync : settings.isAsyncIngest = true) (hsync : settings'.isAsyncIngest = false)
    (httl : settings'.idemTtlSeconds ≠ 0) {jobs : Nat → Job}
    (hjobs : ∀ i payload ip userAgent, jobs i = .ingest payload ip userAgent →
      Enqueued py payload ip userAgent)
    {w : World} (hunused : Unused w) {cfg : Config Cmd.Resp Exn (World × History) Unit}
    (hreach : Reach (backend.recorded (historyRecorder jobs)) sameDay
      (underway py settings jobs w) cfg)
    (hrest : ∀ i, (cfg.threads i).inProgress = false) (hdrained : Drained cfg.world.1) :
    ∃ w', serveAll py settings' cfg.world.2.receipts w = some w' ∧
      ∀ p, computedOver settings cfg.world.1.events p = computedOver settings w'.events p := by
  obtain ⟨hinv, hclaims⟩ := claims_at_rest hasync hjobs hunused hreach hrest
  obtain ⟨w', hserved, hevents⟩ := serveAll_events py hsync httl hunused.serving
    cfg.world.2.receipts
  refine ⟨w', hserved, fun p => ?_⟩
  have hstored : ∀ r ∈ cfg.world.2.receipts, cfg.world.1.stored r.payload.eventId = true := by
    intro r hr
    rcases hinv.answered r.payload.eventId (.inr (List.mem_map_of_mem hr)) with
      hstored | hknown | ⟨i, hi⟩
    · exact hstored
    · exact hinv.stored_of_known hdrained hknown
    · simp [hclaims i] at hi
  obtain ⟨hasync, hsync⟩ := hinv.alike hstored hevents
  exact computedOver_alike settings hasync hsync p

def oneRequest (i : Nat) : Job :=
  if i = 0 then .ingest fullPayload none (some "") else .pass

def syncMode : Settings := { ingestMode := "sync" }

/-- A request a second before midnight, and a pass some time later. -/
def thenPass (ms : Nat) : List (Act Choice EnvAct) :=
  .start 0 :: List.replicate 4 (.step 0 .ok) ++ .env (.tick ms) :: .start 1 ::
    List.replicate 15 (.step 1 .ok)

theorem unused_init (clock : Nat) : Unused (World.init clock) :=
  ⟨⟨rfl, rfl, rfl, rfl⟩, rfl, fun _ => rfl, fun _ => rfl⟩

/-- Two events, the first of which is sent twice, and workers. -/
def threeVisits : Nat → Job
  | 0 => .ingest (visit 1 7) none none
  | 1 => .ingest (visit 2 8) none none
  | 2 => .ingest (visit 1 7) none none
  | _ => .pass

set_option maxRecDepth 4000 in
theorem threeVisits_enqueued (i : Nat) (payload : EventCreate) (ip userAgent : Option String)
    (hjob : threeVisits i = .ingest payload ip userAgent) :
    Enqueued twoVisitors payload ip userAgent := by
  have hfirst : Enqueued twoVisitors (visit 1 7) none none := by
    refine ⟨by decide, rfl, by decide +kernel, ?_, nofun⟩
    rintro u (rfl | hu)
    · decide +kernel
    · cases hu
      decide +kernel
  have hsecond : Enqueued twoVisitors (visit 2 8) none none := by
    refine ⟨by decide, rfl, by decide +kernel, ?_, nofun⟩
    rintro u (rfl | hu)
    · decide +kernel
    · cases hu
      decide +kernel
  rcases i with _ | _ | _ | i <;> cases hjob
  · exact hfirst
  · exact hsecond
  · exact hfirst

theorem drained_of_test {w : World}
    (h : w.stream.pel.length = 0 ∧ w.stream.added.length ≤ w.stream.delivered) : Drained w := by
  intro id
  refine ⟨fun hundelivered => ?_, fun ⟨p, hp, _⟩ => ?_⟩
  · have := hundelivered.1
    have := hundelivered.2.1
    omega
  · rw [List.length_eq_zero_iff.mp h.1] at hp
    cases hp

set_option maxRecDepth 10000 in
/-- A worker reads both entries and stops for a minute, another takes them over and stores
the events, and then the first goes on. -/
theorem same_metrics_of_sameDay_redelivered :
    ∃ cfg, Reach (backend.recorded (historyRecorder threeVisits)) sameDay
        (underway twoVisitors {} threeVisits (World.init 0)) cfg ∧
      cfg.world.2.receipts.length = 3 ∧ cfg.world.1.events.length = 2 ∧
      ∃ w', serveAll twoVisitors syncMode cfg.world.2.receipts (World.init 0) = some w' ∧
        ∀ p, computedOver {} cfg.world.1.events p = computedOver {} w'.events p := by
  obtain ⟨cfg, hreach, hrest, htest⟩ := exists_rest_of_run
    (M := backend.recorded (historyRecorder threeVisits)) (π := sameDay)
    (.start 0 :: List.replicate 4 (.step 0 .ok) ++ .start 2 :: List.replicate 4 (.step 2 .ok) ++
      .env (.tick 1000) :: .start 1 :: List.replicate 4 (.step 1 .ok) ++
      .start 3 :: .step 3 .ok :: .env (.tick 61000) :: .start 4 ::
      List.replicate 21 (.step 4 .ok) ++ List.replicate 14 (.step 3 .ok)) 5
    (underway twoVisitors {} threeVisits (World.init 0))
    (fun cfg => decide ((cfg.world.1.stream.pel.length = 0 ∧
      cfg.world.1.stream.added.length ≤ cfg.world.1.stream.delivered) ∧
      cfg.world.2.receipts.length = 3 ∧ cfg.world.1.events.length = 2))
    (fun _ => rfl) (by decide +kernel) (by decide +kernel)
  obtain ⟨hdrained, hreceipts, hevents⟩ := of_decide_eq_true htest
  exact ⟨cfg, hreach, hreceipts, hevents, same_metrics_of_sameDay twoVisitors (by decide +kernel)
    (by decide +kernel) (by decide) threeVisits_enqueued (unused_init _) hreach hrest
    (drained_of_test hdrained)⟩

set_option maxRecDepth 10000 in
/-- The worker comes to the event after midnight, and the day of the request loses its
only user to the next day. -/
theorem day_lost_in_backlog :
    ¬ ∀ cfg, Reach (backend.recorded (historyRecorder oneRequest)) (smooth.recorded History)
        (underway fullPython {} oneRequest (World.init 86399000)) cfg →
      (∀ i, (cfg.threads i).inProgress = false) → Drained cfg.world.1 →
      ∃ w', serveAll fullPython syncMode cfg.world.2.receipts (World.init 86399000) = some w' ∧
        ∀ p, computedOver {} cfg.world.1.events p = computedOver {} w'.events p := by
  intro h
  obtain ⟨cfg, hreach, hrest, htest⟩ := exists_rest_of_run
    (M := backend.recorded (historyRecorder oneRequest)) (π := smooth.recorded History)
    (thenPass 1000) 2 (underway fullPython {} oneRequest (World.init 86399000))
    (fun cfg => decide ((cfg.world.1.stream.pel.length = 0 ∧
      cfg.world.1.stream.added.length ≤ cfg.world.1.stream.delivered) ∧
      computedOver {} cfg.world.1.events (.dau 0) = some [0] ∧
      (serveAll fullPython syncMode cfg.world.2.receipts (World.init 86399000)).map
        (fun w' => computedOver {} w'.events (.dau 0)) = some (some [1])))
    (fun _ => rfl) (by decide +kernel) (by decide +kernel)
  obtain ⟨hdrained, hlost, hkept⟩ := of_decide_eq_true htest
  obtain ⟨w', hserved, hsame⟩ := h cfg hreach hrest (drained_of_test hdrained)
  rw [hserved, Option.map_some, ← hsame, hlost] at hkept
  simp at hkept

end EventAnalytics.Workers
