import EventAnalytics.Library.Between
import EventAnalytics.Library.Lookup
import EventAnalytics.Services.UserService
import EventAnalytics.Workers.Modes

/-! `GET /events/{event_id}`: what a reader finds while requests and passes of any kind go
on writing. -/
namespace EventAnalytics.Api

open Library Library.Discipline Services
open Workers (rowsInSight)

structure EventRead where
  eventId : UUID
  userId : Option UUID
  sessionId : String
  eventType : String
  properties : Dict
  clientTs : Option Datetime
  serverTs : Nat

inductive ReadExn
  | exn (exc : Exn)
  | multipleResultsFound
  | validationError

/-- `EventRead.model_validate`: two fields take a text, and one an object. -/
def EventRead.modelValidate (row : EventRow) : Except ReadExn EventRead :=
  match row.sessionId, row.eventType, row.properties with
  | .str sessionId, .str eventType, .obj properties =>
    .ok ⟨row.eventId, row.userId, sessionId, eventType, properties, row.clientTs, row.serverTs⟩
  | _, _, _ => .error .validationError

/-- `get_by_event_id` over the rows that are stored, with `scalar_one_or_none`. -/
def getByEventId (events : List EventRow) (eventId : UUID) : Except ReadExn (Option EventRow) :=
  match events.filter fun row => row.eventId = eventId with
  | [] => .ok none
  | [row] => .ok (some row)
  | _ => .error .multipleResultsFound

def eventNotFound : ReadExn := .exn (notFoundError "Event not found")

def getEvent (events : List EventRow) (eventId : UUID) : Except ReadExn EventRead :=
  match getByEventId events eventId with
  | .error exc => .error exc
  | .ok none => .error eventNotFound
  | .ok (some row) => EventRead.modelValidate row

section Lookup

variable {events events' : List EventRow} {e : UUID}

theorem getByEventId_eq (hunique : (events.map EventRow.eventId).Nodup) (e : UUID) :
    getByEventId events e = .ok (events.find? fun row => row.eventId = e) := by
  unfold getByEventId
  rw [filter_of_nodup hunique]
  cases events.find? fun row => row.eventId = e <;> rfl

theorem getEvent_of_mem (hunique : (events.map EventRow.eventId).Nodup) {row : EventRow}
    (hrow : row ∈ events) : getEvent events row.eventId = EventRead.modelValidate row := by
  unfold getEvent
  rw [getByEventId_eq hunique, find?_of_nodup hunique hrow]

theorem getEvent_cases (hunique : (events.map EventRow.eventId).Nodup) (e : UUID) :
    (∃ row ∈ events, row.eventId = e ∧ getEvent events e = EventRead.modelValidate row) ∨
      getEvent events e = .error eventNotFound := by
  unfold getEvent
  rw [getByEventId_eq hunique]
  cases hfound : events.find? fun row => row.eventId = e with
  | none => exact .inr rfl
  | some row =>
      have he : row.eventId = e := by simpa using List.find?_some hfound
      exact .inl ⟨row, List.mem_of_find?_eq_some hfound, he, rfl⟩

theorem modelValidate_ne (row : EventRow) :
    EventRead.modelValidate row ≠ .error .multipleResultsFound ∧
      EventRead.modelValidate row ≠ .error eventNotFound := by
  unfold EventRead.modelValidate
  split <;> simp [eventNotFound]

end Lookup

def Unique (w : World) : Prop :=
  ((rowsInSight w).map EventRow.eventId).Nodup

section Unique

variable {i : Nat} {w w' : World}

theorem Unique.events (h : Unique w) : (w.events.map EventRow.eventId).Nodup := by
  unfold Unique rowsInSight at h
  rw [List.map_append] at h
  exact h.of_append_left

theorem Unique.keep (h : Unique w) (hevents : w'.events = w.events)
    (hsub : w'.uncommitted.Sublist w.uncommitted) : Unique w' := by
  have hrows : (rowsInSight w').Sublist (rowsInSight w) := by
    unfold rowsInSight
    rw [hevents]
    exact (List.Sublist.refl _).append (hsub.map _)
  exact List.Nodup.sublist (hrows.map _) h

theorem Unique.rollbackTx (h : Unique w) (i : Nat) : Unique (w.rollbackTx i) :=
  h.keep rfl List.filter_sublist

theorem rowsInSight_commitTx (hlive : w.aborted i = false) :
    (rowsInSight (w.commitTx i)).Perm (rowsInSight w) := by
  have hsplit := (List.filter_append_perm (fun jr : Nat × EventRow => jr.1 = i)
    w.uncommitted).map Prod.snd
  simp only [rowsInSight, World.commitTx, hlive, Bool.false_eq_true, if_false, World.ownRows,
    World.dropRows, List.append_assoc]
  apply List.Perm.append_left
  simpa using hsplit

theorem Unique.commitTx (h : Unique w) (i : Nat) : Unique (w.commitTx i) := by
  cases haborted : w.aborted i with
  | true => exact h.keep (by simp [World.commitTx, haborted]) List.filter_sublist
  | false => exact ((rowsInSight_commitTx haborted).map EventRow.eventId).nodup_iff.mpr h

theorem Unique.insert (h : Unique w) {row : EventRow} (hstored : w.stored row.eventId = false)
    (howned : w.ownsRow i row.eventId = false)
    (hheld : w.heldByOther i row.eventId = false) :
    Unique { w with uncommitted := w.uncommitted ++ [(i, row)] } := by
  have hnew : row.eventId ∉ (rowsInSight w).map EventRow.eventId := by
    intro hmem
    obtain ⟨other, hother, heq⟩ := List.mem_map.mp hmem
    rcases List.mem_append.mp hother with hother | hother
    · have := World.stored_iff.mpr ⟨other, hother, heq⟩
      simp [hstored] at this
    · obtain ⟨jr, hjr, rfl⟩ := List.mem_map.mp hother
      by_cases hj : jr.1 = i
      · simp only [World.ownsRow, List.any_eq_false] at howned
        exact howned jr hjr (by simp [hj, heq])
      · simp only [World.heldByOther, List.any_eq_false] at hheld
        exact hheld jr hjr (by simp [hj, heq])
  have hrows : rowsInSight { w with uncommitted := w.uncommitted ++ [(i, row)] } =
      rowsInSight w ++ [row] := by
    simp [rowsInSight]
  unfold Unique
  rw [hrows, List.map_append]
  exact List.nodup_append.mpr ⟨h, List.nodup_singleton _, by
    rintro a ha b hb rfl
    exact hnew (List.mem_singleton.mp hb ▸ ha)⟩

theorem Unique.exec (h : Unique w) {ch : Choice} {c : Cmd} {r : Except Exn c.Resp}
    (hexec : backend.exec i ch w c = some (r, w')) : Unique w' := by
  by_cases hquiet : c.quiet = true
  · have hsame := exec_quiet hquiet hexec
    exact h.keep hsame.events (hsame.uncommitted ▸ List.Sublist.refl _)
  cases c <;> simp only [Cmd.quiet, not_true_eq_false] at hquiet
  case insertEvent row origin =>
    rcases exec_insertEvent hexec with ⟨-, -, -, hstored, howned, hheld, rfl⟩ |
      ⟨-, -, -, -, rfl⟩ | ⟨-, rfl, -⟩ | ⟨-, rfl, -⟩
    · exact h.insert hstored howned hheld
    · exact h
    · exact h
    · exact h.keep rfl List.filter_sublist
  case selectEvent e =>
    rcases exec_selectEvent hexec with rfl | ⟨rfl, -⟩
    · exact h
    · exact h.keep rfl List.filter_sublist
  case commit =>
    rcases exec_commit hexec with rfl | ⟨rfl, -⟩
    · exact h.commitTx i
    · exact h
  case rollback =>
    rw [exec_rollback hexec]
    exact h.rollbackTx i
  all_goals
    rcases exec_stream rfl rfl rfl hexec with ⟨rfl, -⟩ | ⟨rfl, -⟩ <;> exact h

theorem Unique.env (h : Unique w) {act : EnvAct} (henv : backend.env act w = some w') :
    Unique w' := by
  cases act <;> cases henv <;> exact h

end Unique

/-- A thread keeps its rows while others write, and time passes. -/
structure Meanwhile (i : Nat) (w w' : World) : Prop extends World.Frame i w w' where
  clock : w.clock ≤ w'.clock

theorem Meanwhile.trans {i : Nat} {a b c : World} (hab : Meanwhile i a b)
    (hbc : Meanwhile i b c) : Meanwhile i a c :=
  ⟨hab.toFrame.trans hbc.toFrame, hab.clock.trans hbc.clock⟩

def writers : Discipline Cmd.Resp Exn World Choice EnvAct where
  machine := backend
  policy := .any
  inv := Unique
  rely := Meanwhile
  duty := fun _ _ _ => True
  rely_refl := fun i w => ⟨.refl i w, le_refl _⟩
  rely_trans := fun _ _ _ _ => Meanwhile.trans
  step_sound := fun _ _ _ _ _ _ _ hinv _ hexec =>
    ⟨hinv.exec hexec, fun _ hj => ⟨exec_frame hj hexec, (exec_clock hexec).ge⟩⟩
  crash_sound := fun i w _ _ hinv =>
    ⟨hinv.rollbackTx i, fun _ hj => ⟨crash_frame w hj, le_refl _⟩⟩
  env_sound := fun act w w' _ hinv henv => ⟨hinv.env henv, fun j => ⟨env_frame henv j, by
    cases act <;> cases henv
    · exact Nat.le_add_right _ _
    · exact le_refl _⟩⟩

theorem grows_of_reach {α : Type} {π : BackendPolicy} {a b : Config Cmd.Resp Exn World α}
    (hreach : Reach backend π a b) : a.world.Grows b.world :=
  hreach.related World.Grows.refl (fun _ _ _ => World.Grows.trans)
    (fun _ _ _ _ _ _ hexec => exec_grows hexec)
    (fun i w => (crash_frame w (Nat.succ_ne_self i)).toGrows)
    fun _ _ _ henv => (env_frame henv 0).toGrows

theorem unique_of_reach {α : Type} {π : BackendPolicy} {a b : Config Cmd.Resp Exn World α}
    (hreach : Reach backend π a b) (h : Unique a.world) : Unique b.world :=
  hreach.related (R := fun w w' => Unique w → Unique w') (fun _ h => h)
    (fun _ _ _ hab hbc h => hbc (hab h)) (fun _ _ _ _ _ _ hexec h => h.exec hexec)
    (fun i _ h => h.rollbackTx i) (fun _ _ _ henv h => h.env henv) h

theorem getEvent_grows {w w' : World} (hgrows : w.Grows w') (h : Unique w) (h' : Unique w')
    {e : UUID} (hfound : getEvent w.events e ≠ .error eventNotFound) :
    getEvent w'.events e = getEvent w.events e := by
  rcases getEvent_cases h.events e with ⟨row, hrow, rfl, hread⟩ | hread
  · rw [hread, getEvent_of_mem h'.events (hgrows.events.subset hrow)]
  · exact absurd hread hfound

/-- Whatever threads run, fail and crash: a read never meets two rows, and what it has
found once, every later read finds again. -/
theorem reads_stable {α : Type} {π : BackendPolicy} {start cfg later : Config Cmd.Resp Exn World α}
    (hunique : Unique start.world) (hreach : Reach backend π start cfg)
    (hlater : Reach backend π cfg later) (e : UUID) :
    getEvent cfg.world.events e ≠ .error .multipleResultsFound ∧
      (getEvent cfg.world.events e ≠ .error eventNotFound →
        getEvent later.world.events e = getEvent cfg.world.events e) := by
  have hcfg := unique_of_reach hreach hunique
  refine ⟨?_, getEvent_grows (grows_of_reach hlater) hcfg (unique_of_reach hlater hcfg)⟩
  rcases getEvent_cases hcfg.events e with ⟨row, -, -, hread⟩ | hread
  · rw [hread]
    exact (modelValidate_ne row).1
  · rw [hread]
    simp [eventNotFound]

/-- An event that is stored under another session than the one it is posted again with. -/
def viewStored : World :=
  { World.init 0 with
    events := [⟨1, none, .str "s0", .str "view", .obj [], none, 0, .null, .null⟩] }

def viewOnce (i : Nat) : Task :=
  if i = 0 then
    .single ⟨some "10.0.0.1", none, some "curl", "u1"⟩
      { eventId := 1, sessionId := "s1", eventType := .view, properties := [("page", .str "/")] }
  else .pass

theorem reads_stable_reposted :
    ∃ later, Reach backend .any
        (service (.ofTable [] []) (fun _ => Workers.syncMode) viewOnce viewStored) later ∧
      (later.threads 0).result?.map (·.results) = some [⟨1, .deduplicated, true, .sync⟩] ∧
      getEvent later.world.events 1 = .ok ⟨1, none, "s0", "view", [], none, 0⟩ := by
  obtain ⟨later, hlater, htest⟩ := exists_reach_of_run (M := backend) (π := .any)
    (.start 0 :: List.replicate 15 (.step 0 .ok))
    (service (.ofTable [] []) (fun _ => Workers.syncMode) viewOnce viewStored)
    (fun cfg =>
      (cfg.threads 0).result?.map (·.results) = some [⟨1, .deduplicated, true, .sync⟩])
    (by decide +kernel)
  have hread : getEvent viewStored.events 1 = .ok ⟨1, none, "s0", "view", [], none, 0⟩ := rfl
  have hunique : Unique viewStored := List.nodup_singleton _
  refine ⟨later, hlater, of_decide_eq_true htest, ?_⟩
  exact ((reads_stable hunique .refl hlater 1).2 (fun h => by cases hread.symm.trans h)).trans hread

/-- What a reader is shown of an event that was received at `serverTs`. -/
def asRead (payload : EventCreate) (serverTs : Nat) : EventRead where
  eventId := payload.eventId
  userId := payload.userId
  sessionId := payload.sessionId
  eventType := payload.eventType.value
  properties := payload.properties
  clientTs := payload.clientTs
  serverTs := serverTs

/-- An event that was accepted has a row that shows it. -/
def Backed (since upTo : Nat) (rows : List EventRow) (payload : EventCreate)
    (r : EventIngestResult) : Prop :=
  r.eventId = payload.eventId ∧
    (r.status = .accepted → ∃ row ∈ rows, ∃ serverTs, row.eventId = payload.eventId ∧
      EventRead.modelValidate row = .ok (asRead payload serverTs) ∧
      since ≤ serverTs ∧ serverTs ≤ upTo)

/-- Nothing that thread `i` has inserted is lost. -/
structure Writing (i : Nat) (w w' : World) : Prop where
  live : w.aborted i = false → w'.aborted i = false
  clock : w.clock ≤ w'.clock
  rows : w.ownRows i ⊆ w'.ownRows i

section Write

variable {i : Nat} {w w' : World}

theorem Writing.refl (i : Nat) (w : World) : Writing i w w :=
  ⟨id, le_refl _, List.Subset.refl _⟩

theorem Writing.trans {a b c : World} (hab : Writing i a b) (hbc : Writing i b c) :
    Writing i a c :=
  ⟨fun h => hbc.live (hab.live h), hab.clock.trans hbc.clock, List.Subset.trans hab.rows hbc.rows⟩

theorem Backed.mono {since since' upTo upTo' : Nat} {rows rows' : List EventRow}
    {payload : EventCreate} {r : EventIngestResult} (h : Backed since upTo rows payload r)
    (hsince : since' ≤ since) (hupTo : upTo ≤ upTo') (hrows : rows ⊆ rows') :
    Backed since' upTo' rows' payload r := by
  refine ⟨h.1, fun hstatus => ?_⟩
  obtain ⟨row, hrow, serverTs, hid, hread, hfrom, hto⟩ := h.2 hstatus
  exact ⟨row, hrows hrow, serverTs, hid, hread, hsince.trans hfrom, hto.trans hupTo⟩

theorem wp_meanwhile {α : Type} {p : App α} (hp : p.Issues fun c => c.sql = false) {w₀ : World}
    (hw : Meanwhile i w₀ w) :
    writers.wp i p (ends (fun _ => Meanwhile i w₀) fun _ _ => True) w := by
  induction p generalizing w with
  | ret a => exact hw
  | raise exc => trivial
  | call c k ih =>
      refine ⟨trivial, fun _ _ _ => trivial, fun ch r w₁ _ hexec w₂ hw₂ => ih r (hp.2 r) ?_⟩
      have hstep : Meanwhile i w w₁ := ⟨exec_frame_redis hp.1 hexec i, (exec_clock hexec).ge⟩
      exact (hw.trans hstep).trans hw₂.2

def Settled (since : Nat) (items : List EventCreate) (results : List EventIngestResult)
    (w : World) : Prop :=
  List.Forall₂ (Backed since w.clock w.events) items results

theorem Settled.later {since : Nat} {items : List EventCreate}
    {results : List EventIngestResult} (h : Settled since items results w) (hgrows : w.Grows w')
    (hclock : w.clock ≤ w'.clock) : Settled since items results w' :=
  List.Forall₂.imp (fun _ _ hb => hb.mono (le_refl _) hclock hgrows.events.subset) h

/-- The results so far, one for each event that was handled, in the open transaction. -/
structure Ingesting (i since : Nat) (items : List EventCreate) (results : List EventIngestResult)
    (w : World) : Prop where
  live : w.aborted i = false
  started : since ≤ w.clock
  backed : List.Forall₂ (Backed since w.clock (w.ownRows i)) items results

theorem Ingesting.snoc {since : Nat} {items : List EventCreate}
    {results : List EventIngestResult} (h : Ingesting i since items results w)
    (hwriting : Writing i w w') {payload : EventCreate} {r : EventIngestResult}
    (hr : Backed w.clock w'.clock (w'.ownRows i) payload r) :
    Ingesting i since (items ++ [payload]) (results ++ [r]) w' where
  live := hwriting.live h.live
  started := h.started.trans hwriting.clock
  backed := by
    apply List.rel_append
    · exact h.backed.imp fun _ _ hb => hb.mono (le_refl _) hwriting.clock hwriting.rows
    · exact .cons (hr.mono h.started (le_refl _) (List.Subset.refl _)) .nil

theorem wp_limited {α : Type} {handler : App α} {settings : Settings} {request : Request}
    {R : α → World → Prop}
    (h : ∀ w₁, Meanwhile i w w₁ → writers.wp i handler (ends R fun _ _ => True) w₁) :
    writers.wp i (do
      let _ ← Core.enforceRateLimit settings request.clientHost (some request.userId) true
      handler) (ends R fun _ _ => True) w :=
  wp_seq (wp_meanwhile (Core.issues_enforceRateLimit (N := fun c => c.sql = false) rfl rfl
    (fun _ _ _ _ _ => rfl) _ _ _ _) ⟨.refl i w, le_refl _⟩) fun _ w₁ hw₁ => h w₁ hw₁

end Write

structure Idle (w : World) : Prop where
  unique : (w.events.map EventRow.eventId).Nodup
  uncommitted : w.uncommitted = []
  live : ∀ i, w.aborted i = false

end EventAnalytics.Api
