import EventAnalytics.Api.Provenance
import EventAnalytics.Library.Progress

/-! Requests that never wait. An `INSERT` waits for a transaction that has inserted the
same event and is still open; the key of the event lets only one request come that far. -/
namespace EventAnalytics.Api

open Library Library.Discipline Services Redis
open Workers (Known eventIdOf)

/-- No key of these events expires, and nobody else enqueues them. -/
def keysHold (py : Python) (es : List UUID) : BackendPolicy where
  step := fun _ _ _ _ => true
  crash := fun _ _ _ => true
  env
    | .tick ms, w => es.all fun e => !w.hasKey e || { w with clock := w.clock + ms }.hasKey e
    | .produce fields, _ => es.all fun e => eventIdOf py fields ≠ some e

section Exec

variable {i : Nat} {w w' : World} {ch : Choice} {c : Cmd} {r : Except Exn c.Resp}

theorem exec_uncommitted (hexec : backend.exec i ch w c = some (r, w')) :
    (∃ row origin, c = .insertEvent row origin ∧ w'.uncommitted = w.uncommitted ++ [(i, row)]) ∨
      w'.uncommitted ⊆ w.uncommitted := by
  by_cases hquiet : c.quiet = true
  · exact .inr fun _ hjr => (exec_quiet hquiet hexec).uncommitted ▸ hjr
  cases c <;> simp only [Cmd.quiet, not_true_eq_false] at hquiet
  case insertEvent row origin =>
    rcases exec_insertEvent hexec with ⟨-, -, -, -, -, -, rfl⟩ | ⟨-, -, -, -, rfl⟩ |
      ⟨-, rfl, -⟩ | ⟨-, rfl, -⟩
    · exact .inl ⟨row, origin, rfl, rfl⟩
    · exact .inr (List.Subset.refl _)
    · exact .inr (List.Subset.refl _)
    · exact .inr List.filter_sublist.subset
  case selectEvent e =>
    rcases exec_selectEvent hexec with rfl | ⟨rfl, -⟩
    · exact .inr (List.Subset.refl _)
    · exact .inr List.filter_sublist.subset
  case commit =>
    rcases exec_commit hexec with rfl | ⟨rfl, -⟩
    · exact .inr List.filter_sublist.subset
    · exact .inr (List.Subset.refl _)
  case rollback =>
    rw [exec_rollback hexec]
    exact .inr List.filter_sublist.subset
  all_goals
    right
    rcases exec_stream rfl rfl rfl hexec with ⟨rfl, -⟩ | ⟨rfl, -⟩ <;> exact List.Subset.refl _

theorem exec_ok_isSome (hfree : ∀ row origin, c = .insertEvent row origin →
    w.heldByOther i row.eventId = false) : ∃ rw, backend.exec i .ok w c = some rw := by
  cases c <;> simp only [backend, effect]
  case insertEvent row origin =>
    simp only [hfree row origin rfl, Bool.false_eq_true, if_false]
    split
    · exact ⟨_, rfl⟩
    · split <;> exact ⟨_, rfl⟩
  case selectEvent e => split <;> exact ⟨_, rfl⟩
  case setXx e ttl => split <;> exact ⟨_, rfl⟩
  case setDone e ttl => split <;> exact ⟨_, rfl⟩
  case setNx e ttl =>
    split
    · exact ⟨_, rfl⟩
    · split <;> exact ⟨_, rfl⟩
  all_goals exact ⟨_, rfl⟩

end Exec

section Known

variable {py : Python} {e : UUID} {w w' : World}

theorem known_of_added (hadded : w'.stream.added = w.stream.added) :
    Known py w' e ↔ Known py w e := by
  simp only [Known, hadded]

theorem known_append {fields : Entry} (hadded : w'.stream.added = w.stream.added ++ [fields]) :
    Known py w' e ↔ Known py w e ∨ eventIdOf py fields = some e := by
  have hmem : ∀ {v : World}, Known py v e ↔ ∃ f ∈ v.stream.added, eventIdOf py f = some e := by
    intro v
    constructor
    · rintro ⟨id, f, hf, he⟩
      exact ⟨f, List.mem_of_getElem? hf, he⟩
    · rintro ⟨f, hf, he⟩
      obtain ⟨id, hid⟩ := List.mem_iff_getElem?.mp hf
      exact ⟨id, f, hid, he⟩
  rw [hmem, hmem, hadded]
  simp [or_and_right, exists_or]

end Known

/-- One request at most has won `e`, and of the open transactions only its own has a row
of `e`, unless the workers can come by the event. -/
structure Sole (py : Python) (e : UUID) (w : World × List Nat) : Prop where
  oneWin : OneWin e w
  keyed : Known py w.1 e → w.1.hasKey e = true
  rows : ∀ jr ∈ w.1.uncommitted, jr.2.eventId = e → Known py w.1 e ∨ w.2 = [jr.1]

def Entitled (py : Python) (e : UUID) (i : Nat) (w : World × List Nat) : Prop :=
  w.2 = [i] ∧ ¬ Known py w.1 e

/-- Who may insert a row of `e`, and who may enqueue it. -/
def soleDuty (py : Python) (tasks : Nat → Task) (e : UUID) (i : Nat) (w : World × List Nat) :
    Cmd → Prop
  | .insertEvent row _ => row.eventId = e →
    (tasks i = .pass → Known py w.1 e) ∧ (tasks i ≠ .pass → Entitled py e i w)
  | .xadd data => eventIdOf py ⟨some data⟩ = some e → w.2 = [i]
  | _ => True

structure Defers (py : Python) (e : UUID) (i : Nat) (w w' : World × List Nat) : Prop where
  known : Known py w.1 e → Known py w'.1 e
  won : w.2 = [i] → w'.2 = [i]
  entitled : Entitled py e i w → Entitled py e i w'

section Sole

variable {py : Python} {tasks : Nat → Task} {e : UUID} {i : Nat} {w w' : World × List Nat}

theorem Defers.refl (w : World × List Nat) : Defers py e i w w := ⟨id, id, id⟩

theorem Defers.trans {a b c : World × List Nat} (hab : Defers py e i a b)
    (hbc : Defers py e i b c) : Defers py e i a c :=
  ⟨hbc.known ∘ hab.known, hbc.won ∘ hab.won, hbc.entitled ∘ hab.entitled⟩

theorem Defers.keep (hwins : w'.2 = w.2) (hknown : Known py w'.1 e ↔ Known py w.1 e) (j : Nat) :
    Defers py e j w w' := by
  refine ⟨hknown.mpr, ?_, ?_⟩
  · rw [hwins]
    exact id
  · rw [Entitled, Entitled, hwins, hknown]
    exact id

theorem Sole.keep (h : Sole py e w) (hone : OneWin e w') (hwins : w'.2 = w.2)
    (hknown : Known py w'.1 e ↔ Known py w.1 e)
    (hkey : w.1.hasKey e = true → w'.1.hasKey e = true)
    (hrows : ∀ jr ∈ w'.1.uncommitted, jr ∈ w.1.uncommitted ∨
      (jr.2.eventId = e → Known py w.1 e ∨ w.2 = [jr.1])) : Sole py e w' := by
  refine ⟨hone, fun hk => hkey (h.keyed (hknown.mp hk)), fun jr hjr he => ?_⟩
  rw [hknown, hwins]
  rcases hrows jr hjr with hold | hnew
  · exact h.rows jr hold he
  · exact hnew he

theorem Sole.unclaimed (h : Sole py e w) (hfree : w.1.hasKey e = false) :
    w.2 = [] ∧ ¬ Known py w.1 e := by
  refine ⟨?_, fun hknown => ?_⟩
  · by_contra hne
    simp [h.oneWin.2 hne] at hfree
  · simp [h.keyed hknown] at hfree

theorem Sole.exec_xadd (h : Sole py e w) {ch : Choice} {data : String} {r : Except Exn Nat}
    (hduty : soleDuty py tasks e i w (.xadd data))
    (hexec : (backend.recorded (winRecorder e)).exec i ch w (.xadd data) = some (r, w')) :
    Sole py e w' ∧ ∀ j, j ≠ i → Defers py e j w w' := by
  have hone := (h.oneWin.exec hexec).1
  obtain ⟨hstep, hwins⟩ := Machine.exec_recorded hexec
  have hwins : w'.2 = w.2 := hwins
  have hkey : w.1.hasKey e = true → w'.1.hasKey e = true := fun hkey => exec_hasKey hkey hstep
  have hrows : w'.1.uncommitted ⊆ w.1.uncommitted := by
    rcases exec_uncommitted hstep with ⟨row, origin, hc, -⟩ | hrows
    · cases hc
    · exact hrows
  have hsame : (Known py w'.1 e ↔ Known py w.1 e) →
      Sole py e w' ∧ ∀ j, j ≠ i → Defers py e j w w' := fun hknown =>
    ⟨h.keep hone hwins hknown hkey fun jr hjr => .inl (hrows hjr),
      fun j _ => .keep hwins hknown j⟩
  rcases exec_stream rfl rfl rfl hstep with ⟨hw', -⟩ | ⟨hw', -⟩
  · exact hsame (by rw [hw'])
  have hadded : w'.1.stream.added = w.1.stream.added ++ [⟨some data⟩] := by
    rw [hw']
    rfl
  by_cases he : eventIdOf py ⟨some data⟩ = some e
  · have hmine : w.2 = [i] := hduty he
    have hknown : Known py w'.1 e := (known_append hadded).mpr (.inr he)
    refine ⟨⟨hone, fun _ => hkey (h.oneWin.2 (by simp [hmine])), fun jr _ _ => .inl hknown⟩,
      fun j hj => ⟨fun _ => hknown, fun hj' => hwins.trans hj', fun hj' => ?_⟩⟩
    cases hmine.symm.trans hj'.1
    exact absurd rfl hj
  · apply hsame
    rw [known_append hadded]
    simp [he]

theorem Sole.exec (h : Sole py e w) {ch : Choice} {c : Cmd} {r : Except Exn c.Resp}
    (hduty : soleDuty py tasks e i w c)
    (hexec : (backend.recorded (winRecorder e)).exec i ch w c = some (r, w')) :
    Sole py e w' ∧ ∀ j, j ≠ i → Defers py e j w w' := by
  by_cases hxadd : ∃ data, c = .xadd data
  · obtain ⟨data, rfl⟩ := hxadd
    exact h.exec_xadd hduty hexec
  have hone := (h.oneWin.exec hexec).1
  obtain ⟨hstep, -⟩ := Machine.exec_recorded hexec
  have hknown : Known py w'.1 e ↔ Known py w.1 e :=
    known_of_added (Workers.added_exec (fun data hc => hxadd ⟨data, hc⟩) hstep)
  have hrows : ∀ jr ∈ w'.1.uncommitted, jr ∈ w.1.uncommitted ∨
      (jr.2.eventId = e → Known py w.1 e ∨ w.2 = [jr.1]) := by
    rcases exec_uncommitted hstep with ⟨row, origin, rfl, hrows⟩ | hrows
    · rw [hrows]
      intro jr hjr
      refine (List.mem_append.mp hjr).imp_right fun hnew he => ?_
      rw [List.mem_singleton.mp hnew] at he ⊢
      by_cases htask : tasks i = .pass
      · exact .inl ((hduty he).1 htask)
      · exact .inr ((hduty he).2 htask).1
    · exact fun jr hjr => .inl (hrows hjr)
  rcases exec_wins hexec with ⟨hwins, hfree, hkey⟩ | ⟨hwins, hkey⟩
  · obtain ⟨hnone, hunknown⟩ := h.unclaimed hfree
    refine ⟨⟨hone, fun hk => absurd (hknown.mp hk) hunknown, fun jr hjr he => ?_⟩,
      fun j _ => ⟨hknown.mpr, fun hj => ?_, fun hj => ?_⟩⟩
    · rcases hrows jr hjr with hold | hnew
      · simpa [hunknown, hnone] using h.rows jr hold he
      · simpa [hunknown, hnone] using hnew he
    · simp [hnone] at hj
    · simp [Entitled, hnone] at hj
  · exact ⟨h.keep hone hwins hknown hkey hrows, fun j _ => .keep hwins hknown j⟩

theorem Sole.crash (h : Sole py e w) (i : Nat) :
    Sole py e (w.1.rollbackTx i, w.2) ∧ ∀ j, Defers py e j w (w.1.rollbackTx i, w.2) := by
  have hknown : Known py (w.1.rollbackTx i) e ↔ Known py w.1 e := known_of_added rfl
  refine ⟨h.keep ⟨h.oneWin.1, h.oneWin.2⟩ rfl hknown id fun jr hjr => .inl ?_, .keep rfl hknown⟩
  exact List.filter_sublist.subset hjr

end Sole

def sole (py : Python) (tasks : Nat → Task) {es : List UUID} {e : UUID} (he : e ∈ es) :
    Discipline Cmd.Resp Exn (World × List Nat) Choice EnvAct where
  machine := backend.recorded (winRecorder e)
  policy := (keysHold py es).recorded (List Nat)
  inv := Sole py e
  rely := Defers py e
  duty := soleDuty py tasks e
  rely_refl := fun _ _ => .refl _
  rely_trans := fun _ _ _ _ => .trans
  step_sound := fun _ _ _ _ _ _ _ hinv hduty hexec => hinv.exec hduty hexec
  crash_sound := fun i _ _ _ hinv => ⟨(hinv.crash i).1, fun j _ => (hinv.crash i).2 j⟩
  env_sound := fun act w w' hadm hinv henv => by
    obtain ⟨w₁, henv, rfl⟩ := Option.map_eq_some_iff.mp henv
    cases act with
    | produce fields =>
        cases henv
        have hother : eventIdOf py fields ≠ some e :=
          of_decide_eq_true (List.all_eq_true.mp hadm e he)
        have hknown : Known py { w.1 with stream := (w.1.stream.xadd fields).2 } e ↔
            Known py w.1 e := by
          have hadded : (w.1.stream.xadd fields).2.added = w.1.stream.added ++ [fields] := rfl
          rw [known_append hadded]
          simp [hother]
        exact ⟨hinv.keep ⟨hinv.oneWin.1, hinv.oneWin.2⟩ rfl hknown id fun jr hjr => .inl hjr,
          .keep rfl hknown⟩
    | tick ms =>
        cases henv
        have hkey : w.1.hasKey e = true → { w.1 with clock := w.1.clock + ms }.hasKey e = true := by
          intro hkey
          have hlive := List.all_eq_true.mp hadm e he
          simpa [hkey] using hlive
        exact ⟨hinv.keep ⟨hinv.oneWin.1, fun hne => hkey (hinv.oneWin.2 hne)⟩ rfl
          (known_of_added rfl) hkey fun jr hjr => .inl hjr, .keep rfl (known_of_added rfl)⟩

section Programs

variable {py : Python} {tasks : Nat → Task} {es : List UUID} {e : UUID} {he : e ∈ es} {i : Nat}
  {settings : Settings}

theorem entitled_of_claim {w w' w'' : World × List Nat} {ch : Choice} {ttl : Nat}
    (hinv : Sole py e w)
    (hexec : (sole py tasks he).machine.exec i ch w (.setNx e ttl) = some (.ok true, w'))
    (hlater : (sole py tasks he).Later i w' w'') : Entitled py e i w'' := by
  apply hlater.2.entitled
  obtain ⟨hstep, hwins⟩ := Machine.exec_recorded hexec
  rcases exec_setNx hstep with ⟨h, -⟩ | ⟨-, hfree, -, -⟩ | ⟨exc, h, -⟩ | ⟨exc, h, -⟩
  · cases h
  · obtain ⟨hnone, hunknown⟩ := hinv.unclaimed hfree
    refine ⟨by rw [hwins, hnone]; exact if_pos rfl, ?_⟩
    rwa [known_of_added (Workers.added_exec (by simp) hstep)]
  · cases h
  · cases h

theorem safe_ingestOne (hrequest : tasks i ≠ .pass) {payload : EventCreate}
    {ip userAgent : Option String}
    (henqueued : settings.isAsyncIngest = true → Workers.Enqueued py payload ip userAgent) :
    (sole py tasks he).Safe i (ingestOne py settings payload ip userAgent) := by
  unfold ingestOne claimIdempotency alreadyInDb
  refine safe_call (fun _ _ => trivial) fun w ch claimed w' w'' hinv hexec hlater => ?_
  have hinv'' : Sole py e w'' := hlater.1
  cases claimed with
  | false =>
      have hlook : (sole py tasks he).Safe i (do
          if ← await (.selectEvent payload.eventId) then
            pure ⟨payload.eventId, .deduplicated, true, ingestMode settings⟩
          else
            pure ⟨payload.eventId, .deduplicated, true, ingestMode settings⟩ :
          App EventIngestResult) := by
        refine Safe.bind (safe_perform fun _ _ => trivial) fun found => ?_
        cases found <;> exact safe_ret _
      exact hlook w'' hinv''
  | true =>
      have hmine : payload.eventId = e → Entitled py e i w'' := by
        rintro rfl
        exact entitled_of_claim hinv hexec hlater
      simp only [Bool.not_true, Bool.false_eq_true, if_false]
      split
      · rename_i hasync
        refine wp_perform_bind (fun hid => ?_) (fun _ _ hw => hw.1)
          (fun _ _ _ _ _ _ hw => hw.1) fun _ _ _ _ _ _ hw => hw.1
        rw [(henqueued hasync).eventIdOf_eq] at hid
        exact (hmine (Option.some.inj hid)).1
      · unfold ingestSync markDone
        refine wp_perform_bind trivial (fun _ _ hw => hw.1) (fun _ _ _ _ _ _ hw => hw.1)
          fun ch₁ serverTs w₁ _ hnow w₂ hw₂ => ?_
        have hstill : payload.eventId = e → Entitled py e i w₂ := by
          intro hid
          obtain ⟨hstep, hwins⟩ := Machine.exec_recorded hnow
          apply hw₂.2.entitled
          refine ⟨hwins.trans (hmine hid).1, ?_⟩
          rw [known_of_added (Workers.added_exec (by simp) hstep)]
          exact (hmine hid).2
        refine wp_perform_bind (fun hid => ⟨fun htask => absurd htask hrequest, fun _ =>
          hstill hid⟩) (fun _ _ hw => hw.1) (fun _ _ _ _ _ _ hw => hw.1)
          fun _ inserted _ _ _ w₃ hw₃ => ?_
        have hmark : (sole py tasks he).Safe i (do
            await (.setXx payload.eventId settings.idemTtlSeconds)
            if !inserted then
              pure ⟨payload.eventId, .deduplicated, true, ingestMode settings⟩
            else
              pure ⟨payload.eventId, .accepted, false, ingestMode settings⟩ :
            App EventIngestResult) := by
          refine Safe.bind (safe_perform fun _ _ => trivial) fun _ => ?_
          cases inserted <;> exact safe_ret _
        exact hmark w₃ hw₃.1

theorem safe_routine {α : Type} {p : App α} (hp : p.Issues fun c => routine c = true) :
    (sole py tasks he).Safe i p := by
  apply safe_issues hp
  intro c w hc _
  cases c <;> trivial

theorem safe_ingestAll (hrequest : tasks i ≠ .pass) {request : Request}
    {events : List EventCreate}
    (hevents : ∀ item ∈ events, settings.isAsyncIngest = true →
      Workers.Enqueued py item (some (clientIp request)) request.userAgent)
    (acc : EventBatchResult) :
    (sole py tasks he).Safe i (ingestAll py settings request events acc) := by
  induction events generalizing acc with
  | nil => exact safe_ret _
  | cons item events ih =>
      unfold ingestAll
      apply Safe.bind (safe_ingestOne hrequest (hevents item List.mem_cons_self))
      exact fun r => ih (fun other hother => hevents other (List.mem_cons_of_mem _ hother)) _

theorem safe_limited {α : Type} {handler : App α} (request : Request)
    (h : (sole py tasks he).Safe i handler) :
    (sole py tasks he).Safe i (getDb do
      let _ ← Core.enforceRateLimit settings request.clientHost (some request.userId) true
      handler) := by
  have hrollback : (sole py tasks he).Safe i (await .rollback) := safe_perform fun _ _ => trivial
  unfold getDb Db.getDb Db.withSession
  refine Safe.bind (Safe.tryExcept (Safe.bind (Safe.bind ?_ fun _ => h) fun a => ?_)
    fun exc => ?_) fun a => Safe.bind hrollback fun _ => safe_ret a
  · apply safe_routine
    exact Core.issues_enforceRateLimit (N := fun c => routine c = true) rfl rfl
      (fun _ _ _ _ _ => rfl) _ _ _ _
  · exact Safe.bind (safe_perform fun _ _ => trivial) fun _ => safe_ret a
  · exact Safe.bind hrollback fun _ _ hinv => hinv

/-- What the worker does as long as it has seen no entry of `e`. -/
def passesOver (e : UUID) : Cmd → Prop
  | .insertEvent row _ => row.eventId ≠ e
  | .xadd _ => False
  | _ => True

def enqueues : Cmd → Bool
  | .xadd _ => true
  | _ => false

theorem safe_pass (hpass : tasks i = .pass) :
    (sole py tasks he).Safe i (Task.pass.run py settings) := by
  have hover : ∀ fields payload, eventIdOf py fields ≠ some e →
      Mq.parseFields py fields = .ok payload → Yields py (passesOver e) payload := by
    rintro fields payload hother hparse data make rfl hdecode serverTs origin heq
    obtain ⟨row, hid, hmake⟩ := Workers.decodeEvent_row hdecode
    rw [hmake] at heq
    apply hother
    simp [eventIdOf, hparse, hid, Except.toOption, ← heq]
  have hroutine : ∀ c, routine c = true → passesOver e c := by
    intro c hc
    cases c <;> trivial
  have hissues : (Task.pass.run py settings).Issues fun c => enqueues c = false := by
    apply Prog.Relays.issues (A := hands fun _ => True) (R := fun _ => True)
    · intro c r
      cases c <;> cases r <;> simp [hands]
    · exact relays_pass (fun c hc => by cases c <;> first | rfl | cases hc)
        (fun _ _ _ _ _ _ _ _ _ _ => rfl) ⟨rfl, rfl, rfl⟩
  refine safe_relays (J := fun w => Known py w.1 e)
    (relays_pass hroutine hover ⟨trivial, trivial, trivial⟩) hissues ?_ ?_ ?_ ?_ ?_
  · intro c w hc _
    cases c with
    | insertEvent row origin => exact fun hid => absurd hid hc
    | xadd data => exact absurd hc id
    | _ => trivial
  · intro c w hc _ hknown
    cases c with
    | insertEvent row origin => exact fun _ => ⟨fun _ => hknown, fun hne => absurd hpass hne⟩
    | xadd data => cases hc
    | _ => trivial
  · intro c w ch r w' _ hexec
    obtain ⟨hstep, -⟩ := Machine.exec_recorded hexec
    by_cases hknown : Known py w.1 e
    · exact .inr (hknown.grows (exec_grows hstep))
    · left
      refine Sourced.hands (P := fun _ => True) ⟨fun _ _ => trivial, fun fields hfields hid => ?_⟩
        hstep
      obtain ⟨id, hid'⟩ := List.mem_iff_getElem?.mp hfields
      exact hknown ⟨id, fields, hid', hid⟩
  · intro c w ch r w' hexec hknown
    exact hknown.grows (exec_grows (Machine.exec_recorded hexec).1)
  · exact fun w w' hrely => hrely.known

theorem safe_task {settings : Nat → Settings}
    (hposts : ∀ i, (settings i).isAsyncIngest = true → ∀ post ∈ (tasks i).posts,
      Workers.Enqueued py post.1 post.2.1 post.2.2) (i : Nat) :
    (sole py tasks he).Safe i ((tasks i).run py (settings i)) := by
  have hitems := hposts i
  cases htask : tasks i with
  | pass => exact safe_pass htask
  | single request body =>
      rw [htask] at hitems
      have hrequest : tasks i ≠ .pass := by simp [htask]
      refine Safe.bind (safe_limited request (Safe.bind ?_ fun _ => safe_ret _))
        fun _ => safe_ret _
      exact safe_ingestOne hrequest fun hasync => hitems hasync _ (List.mem_singleton_self _)
  | batch request events =>
      rw [htask] at hitems
      have hrequest : tasks i ≠ .pass := by simp [htask]
      refine Safe.bind (safe_limited request ?_) fun _ => safe_ret _
      exact safe_ingestAll hrequest (fun item hitem hasync =>
        hitems hasync _ (List.mem_map_of_mem hitem)) _

end Programs

section Length

variable {py : Python} {settings : Settings}

theorem within_enforceScope (key scope title : String) (limit window : Nat) :
    (Core.enforceScope key scope title limit window).Within 3 := by
  unfold Core.enforceScope Core.slidingWindowCall
  refine Prog.Within.bind (m := 3) (n := 0) ?_ fun reply => ?_
  · refine Prog.Within.bind (n := 2) (Prog.within_perform _) fun _ => ?_
    exact Prog.Within.bind (m := 1) (n := 1) (Prog.within_perform _) fun _ => Prog.within_perform _
  · split <;> trivial

theorem within_enforceRateLimit (clientHost userId : Option String) (eventWrite : Bool) :
    (Core.enforceRateLimit settings clientHost userId eventWrite).Within 9 := by
  unfold Core.enforceRateLimit
  refine Prog.Within.bind (n := 6) (within_enforceScope _ _ _ _ _) fun _ => ?_
  refine Prog.Within.bind (m := 3) (n := 3) ?_ fun _ => ?_
  · unfold Core.enforceUser
    split
    · exact within_enforceScope _ _ _ _ _
    · trivial
  · refine Prog.Within.bind (n := 0) ?_ fun _ => trivial
    unfold Core.enforceEvents
    split
    · exact within_enforceScope _ _ _ _ _
    · trivial

theorem within_ingestOne (payload : EventCreate) (ip userAgent : Option String) :
    (ingestOne py settings payload ip userAgent).Within 4 := by
  unfold ingestOne claimIdempotency alreadyInDb
  refine Prog.Within.bind (n := 3) (Prog.within_perform _) fun claimed => ?_
  cases claimed with
  | false =>
      refine Prog.Within.bind (m := 1) (n := 2) (Prog.within_perform _) fun found => ?_
      cases found <;> trivial
  | true =>
      simp only [Bool.not_true, Bool.false_eq_true, if_false]
      split
      · exact Prog.Within.bind (m := 1) (n := 2) (Prog.within_perform _) fun _ => trivial
      · unfold ingestSync markDone
        refine Prog.Within.bind (n := 2) (Prog.within_perform _) fun serverTs => ?_
        refine Prog.Within.bind (n := 1) (Prog.within_perform _) fun inserted => ?_
        refine Prog.Within.bind (n := 0) (Prog.within_perform _) fun _ => ?_
        cases inserted <;> trivial

theorem within_ingestAll (request : Request) (events : List EventCreate)
    (acc : EventBatchResult) :
    (ingestAll py settings request events acc).Within (4 * events.length) := by
  induction events generalizing acc with
  | nil => trivial
  | cons item events ih =>
      have hsplit : 4 * (item :: events).length = 4 + 4 * events.length := by
        rw [List.length_cons]
        omega
      rw [hsplit]
      exact Prog.Within.bind (within_ingestOne _ _ _) fun r => ih _

theorem within_getDb {α : Type} {handler : App α} {n : Nat} (h : handler.Within n) :
    (getDb handler).Within (n + 3) := by
  unfold getDb Db.getDb Db.withSession
  refine Prog.Within.bind (m := n + 2) (n := 1) (Prog.Within.tryExcept (m := n + 1) (n := 1)
    (Prog.Within.bind (n := 1) h fun a => ?_) fun exc => ?_) fun a => ?_
  · exact Prog.Within.bind (m := 1) (n := 0) (Prog.within_perform _) fun _ => trivial
  · exact Prog.Within.bind (m := 1) (n := 0) (Prog.within_perform _) fun _ => trivial
  · exact Prog.Within.bind (m := 1) (n := 0) (Prog.within_perform _) fun _ => trivial

theorem within_limited {α : Type} {handler : App α} {n : Nat} (request : Request)
    (h : handler.Within n) :
    (getDb do
      let _ ← Core.enforceRateLimit settings request.clientHost (some request.userId) true
      handler : App α).Within (9 + n + 3) :=
  within_getDb (Prog.Within.bind (within_enforceRateLimit _ _ _) fun _ => h)

theorem within_request (py : Python) (settings : Settings) {task : Task} (htask : task ≠ .pass) :
    (task.run py settings).Within (12 + 4 * task.posts.length) := by
  cases task with
  | pass => exact absurd rfl htask
  | single request body =>
      have hcreate : (createEvent py settings request body).Within (9 + 4 + 3) := by
        refine within_limited request (n := 4) ?_
        exact Prog.Within.bind (m := 4) (n := 0) (within_ingestOne _ _ _) fun _ => trivial
      have hposts : 12 + 4 * (Task.single request body).posts.length = 16 + 0 := rfl
      rw [hposts]
      exact Prog.Within.bind hcreate fun _ => trivial
  | batch request events =>
      have hcreate : (createEventsBatch py settings request events).Within
          (9 + 4 * events.length + 3) :=
        within_limited request (within_ingestAll _ _ _)
      refine Prog.Within.mono (Prog.Within.bind (n := 0) hcreate fun _ => trivial) ?_
      simp only [Task.posts, List.length_map]
      omega

end Length

/-- Nobody is inserting `e` yet, and it is in the stream only if it has been claimed. -/
structure Unstarted (py : Python) (e : UUID) (w : World) : Prop where
  uncommitted : ∀ jr ∈ w.uncommitted, jr.2.eventId ≠ e
  keyed : Known py w e → w.hasKey e = true

section Runs

variable (py : Python) (settings : Nat → Settings) (tasks : Nat → Task) {es : List UUID}
  {w : World} {cfg : Config Cmd.Resp Exn World Response} {i : Nat}

theorem insert_unblocked
    (hposts : ∀ i, (settings i).isAsyncIngest = true → ∀ post ∈ (tasks i).posts,
      Workers.Enqueued py post.1 post.2.1 post.2.2)
    (hstart : ∀ e ∈ es, Unstarted py e w)
    (hreach : Reach backend (keysHold py es) (service py settings tasks w) cfg)
    (hrequest : tasks i ≠ .pass) {row : EventRow} {origin : Origin} (he : row.eventId ∈ es)
    (hcommand : (cfg.threads i).command? = some (.insertEvent row origin)) :
    cfg.world.heldByOther i row.eventId = false := by
  obtain ⟨wins, hrecorded⟩ := hreach.recorded (winRecorder row.eventId) []
  have hinv : Sole py row.eventId (w, []) := by
    refine ⟨⟨by simp, by simp⟩, (hstart _ he).keyed, fun jr hjr hid => ?_⟩
    exact absurd hid ((hstart _ he).uncommitted jr hjr)
  have hkeeps := (keeps_ready (D := sole py tasks he) hinv
    (fun i => (tasks i).run py (settings i)) fun i w' hw' =>
      safe_task hposts i w' hw'.1).reach hrecorded
  obtain ⟨k, hk⟩ := Thread.command?_eq_some.mp hcommand
  obtain ⟨hwon, hunknown⟩ := (hkeeps.duty hk rfl).2 hrequest
  rw [World.heldByOther, List.any_eq_false]
  intro jr hjr hother
  simp only [Bool.decide_and, Bool.and_eq_true, decide_eq_true_eq] at hother
  rcases hkeeps.inv.rows jr hjr hother.2 with hknown | hmine
  · exact hunknown hknown
  · cases hwon.symm.trans hmine
    exact hother.1 rfl

/-- Whatever state the other requests and the passes are in, a request comes to its end by
steps of its own, and it takes few of them. -/
theorem requests_finish
    (hposts : ∀ i, (settings i).isAsyncIngest = true → ∀ post ∈ (tasks i).posts,
      Workers.Enqueued py post.1 post.2.1 post.2.2)
    (hstart : ∀ e ∈ es, Unstarted py e w)
    (hreach : Reach backend (keysHold py es) (service py settings tasks w) cfg)
    (hrequest : tasks i ≠ .pass) (hes : ∀ post ∈ (tasks i).posts, post.1.eventId ∈ es)
    {p : App Response} (hrunning : cfg.threads i = .running p) :
    ∃ n ≤ 12 + 4 * (tasks i).posts.length, ∃ next,
      backend.run (keysHold py es) (List.replicate n (.step i .ok)) cfg = some next ∧
      ∃ r, next.threads i = .running (Prog.ofExcept r) := by
  let inserts : Cmd → Prop := fun c => ∀ row origin, c = .insertEvent row origin → row.eventId ∈ es
  have hissues : ((tasks i).run py (settings i)).Issues inserts := by
    refine issues_request (fun c hc row origin h => ?_) (fun post hpost => ⟨?_, ?_⟩) hrequest
    · subst h
      cases hc
    · rintro serverTs row origin ⟨⟩
      exact hes post hpost
    · rintro row origin ⟨⟩
  have hlength : p.Within (12 + 4 * (tasks i).posts.length) := by
    have hleft := hreach.hereditary (I := fun p => p.Within _)
      (fun c k hk r => (hk.2 r).mono (Nat.sub_le _ 1)) (i := i)
      (within_request py (settings i) hrequest)
    rwa [hrunning] at hleft
  refine Machine.exists_run_alone (P := fun cfg =>
    Reach backend (keysHold py es) (service py settings tasks w) cfg) ?_ hreach hlength hrunning
  intro mid hmid hprogress
  obtain ⟨c, k, hk⟩ := Thread.exists_call hprogress
  have hleft := hmid.hereditary (I := fun p => p.Issues inserts) (fun c k hk r => hk.2 r)
    (i := i) hissues
  rw [hk] at hleft
  obtain ⟨rw, hexec⟩ := exec_ok_isSome (w := mid.world) (c := c) (i := i) fun row origin hc => by
    subst hc
    exact insert_unblocked py settings tasks hposts hstart hmid hrequest (hleft.1 row origin rfl)
      (Thread.command?_eq_some.mpr ⟨k, hk⟩)
  have hadm : (keysHold py es).admits mid (.step i .ok) = true := by
    simp [Policy.admits, hk, keysHold]
  refine ⟨hadm, ⟨rw.2, setAt mid.threads i (.running (k rw.1))⟩, ?_, ?_⟩
  · simp [Machine.step, hk, hexec]
  · exact .tail _ hmid hadm (by simp [Machine.step, hk, hexec])

end Runs

def crossing (i : Nat) : Task :=
  if i = 0 then
    .batch ⟨some "10.0.0.1", none, none, "u1"⟩
      [{ eventId := 1, sessionId := "s1", eventType := .view },
        { eventId := 2, sessionId := "s1", eventType := .view }]
  else if i = 1 then
    .batch ⟨some "10.0.0.2", none, none, "u2"⟩
      [{ eventId := 2, sessionId := "s2", eventType := .view },
        { eventId := 1, sessionId := "s2", eventType := .view }]
  else .pass

set_option maxRecDepth 10000 in
/-- Each transaction holds the row that the other one comes to next. -/
theorem requests_finish_crossing :
    ∃ cfg, Reach backend (keysHold (.ofTable [] []) [1, 2])
        (service (.ofTable [] []) (fun _ => { ingestMode := "sync" }) crossing (World.init 0))
        cfg ∧
      cfg.world.uncommitted.map (fun jr => (jr.1, jr.2.eventId)) = [(0, 1), (1, 2)] ∧
      ∃ n ≤ 20, ∃ next, backend.run (keysHold (.ofTable [] []) [1, 2])
          (List.replicate n (.step 0 .ok)) cfg = some next ∧
        ∃ r, next.threads 0 = .running (Prog.ofExcept r) := by
  obtain ⟨cfg, hreach, htest⟩ := exists_reach_of_run (M := backend)
    (π := keysHold (.ofTable [] []) [1, 2])
    (.start 0 :: List.replicate 13 (.step 0 .ok) ++ .start 1 :: List.replicate 13 (.step 1 .ok))
    (service (.ofTable [] []) (fun _ => { ingestMode := "sync" }) crossing (World.init 0))
    (fun cfg => cfg.world.uncommitted.map (fun jr => (jr.1, jr.2.eventId)) = [(0, 1), (1, 2)] &&
      (cfg.threads 0).inProgress)
    (by decide +kernel)
  obtain ⟨huncommitted, hprogress⟩ := Bool.and_eq_true_iff.mp htest
  obtain ⟨c, k, hrunning⟩ := Thread.exists_call hprogress
  refine ⟨cfg, hreach, of_decide_eq_true huncommitted, ?_⟩
  refine requests_finish _ _ crossing ?_ (fun e _ => ⟨by simp [World.init], ?_⟩) hreach
    (by simp [crossing]) (by simp [crossing, Task.posts]) hrunning
  · intro i hasync
    exact absurd hasync (by decide +kernel)
  · rintro ⟨id, fields, hfields, -⟩
    simp [World.init, Stream.empty] at hfields

end EventAnalytics.Api
