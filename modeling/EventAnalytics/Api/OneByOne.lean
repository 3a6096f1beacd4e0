import EventAnalytics.Api.Footprint
import EventAnalytics.Workers.Content
import EventAnalytics.Workers.Modes

/-! A batch is its events one by one: behind the limiter it makes no difference whether the
events share a transaction, as long as nobody else is at work and nothing fails. -/
namespace EventAnalytics.Api

open Library Services Workers

def World.later (w : World) (ms : Nat) : World := { w with clock := w.clock + ms }

/-- Time passes before a command; nothing fails. -/
def ticking : Machine Cmd.Resp Exn World Nat EnvAct where
  exec _ ms w c := effect 0 (World.later w ms) c
  crash _ w := w.rollbackTx 0
  env _ _ := none

/-- The events one by one, each in a request of its own. -/
inductive Singly (py : Python) (settings : Settings) (request : Request) :
    World → List EventCreate → List EventIngestResult → World → Prop
  | done {w : World} (ms : Nat) : Singly py settings request w [] [] (World.later w ms)
  | post {w w₁ w' : World} {item : EventCreate} {items : List EventCreate}
      {r : EventIngestResult} {rs : List EventIngestResult}
      (hpost : Solo ticking .any 0 w
        (ingestRequest py settings item (some (clientIp request)) request.userAgent) (.ok r) w₁)
      (hrest : Singly py settings request w₁ items rs w') :
      Singly py settings request w (item :: items) (r :: rs) w'

/-- What the loop has counted after `rs`. -/
def tally (acc : EventBatchResult) (rs : List EventIngestResult) : EventBatchResult where
  results := acc.results ++ rs
  accepted := acc.accepted + rs.countP fun r => !r.deduplicated
  deduplicated := acc.deduplicated + rs.countP fun r => r.deduplicated

/-- The stores agree but for how far the rows of the open transaction have got. -/
structure Agree (a b : World) : Prop where
  same : b = { a with events := b.events, uncommitted := b.uncommitted }
  rows : b.events ++ b.uncommitted.map Prod.snd = a.events ++ a.uncommitted.map Prod.snd
  alone : ∀ jr ∈ a.uncommitted, jr.1 = 0
  alone' : ∀ jr ∈ b.uncommitted, jr.1 = 0
  aborted : a.aborted 0 = false

section Agree

variable {a b a' : World}

theorem Agree.refl (halone : ∀ jr ∈ a.uncommitted, jr.1 = 0) (haborted : a.aborted 0 = false) :
    Agree a a :=
  ⟨rfl, rfl, halone, halone, haborted⟩

theorem Agree.symm (h : Agree a b) : Agree b a where
  same := by
    have hsame := h.same
    generalize b.events = events, b.uncommitted = uncommitted at hsame
    subst hsame
    rfl
  rows := h.rows.symm
  alone := h.alone'
  alone' := h.alone
  aborted := by
    rw [h.same]
    exact h.aborted

theorem Agree.later (h : Agree a b) (ms : Nat) : Agree (World.later a ms) (World.later b ms) where
  same := by
    have hsame := h.same
    generalize b.events = events, b.uncommitted = uncommitted at hsame
    subst hsame
    rfl
  rows := h.rows
  alone := h.alone
  alone' := h.alone'
  aborted := h.aborted

theorem sees_eq (halone : ∀ jr ∈ a.uncommitted, jr.1 = 0) (e : UUID) :
    sees a e = (a.events ++ a.uncommitted.map Prod.snd).any fun row => row.eventId = e := by
  have hown : a.ownsRow 0 e = (a.uncommitted.map Prod.snd).any fun row => row.eventId = e := by
    rw [Bool.eq_iff_iff, World.ownsRow, List.any_map, List.any_eq_true, List.any_eq_true]
    refine exists_congr fun jr => and_congr_right fun hjr => ?_
    simp [halone jr hjr]
  rw [List.any_append, sees, hown]
  rfl

theorem Agree.sees (h : Agree a b) (e : UUID) : sees b e = sees a e := by
  rw [sees_eq h.alone', sees_eq h.alone, h.rows]

/-- The commands of `ingest_one` that do not look at the table. -/
def ofRedis : Cmd → Bool
  | .now | .setNx .. | .setXx .. | .xadd _ => true
  | _ => false

theorem effect_ofRedis {c : Cmd} (hc : ofRedis c = true) (events : List EventRow)
    (uncommitted : List (Nat × EventRow)) :
    effect 0 { a with events := events, uncommitted := uncommitted } c =
      (effect 0 a c).map fun answer =>
        (answer.1, { answer.2 with events := events, uncommitted := uncommitted }) := by
  cases c <;> simp only [ofRedis, Bool.false_eq_true] at hc
  case now | xadd => rfl
  all_goals
    rename_i e ttl
    have hkey : World.hasKey { a with events := events, uncommitted := uncommitted } e =
        a.hasKey e := rfl
    simp only [effect, hkey]
    split
    · rfl
    · cases a.hasKey e <;> rfl

theorem effect_ofRedis_rows {c : Cmd} (hc : ofRedis c = true) {r : Except Exn c.Resp}
    (heffect : effect 0 a c = some (r, a')) :
    a'.events = a.events ∧ a'.uncommitted = a.uncommitted ∧ a'.aborted = a.aborted := by
  by_cases hquiet : c.quiet = true
  · have hsame := effect_quiet hquiet heffect
    exact ⟨hsame.events, hsame.uncommitted, hsame.aborted⟩
  cases c <;> simp only [ofRedis, Cmd.quiet, Bool.false_eq_true, not_true_eq_false] at hc hquiet
  cases heffect
  exact ⟨rfl, rfl, rfl⟩

def ofIngest : Cmd → Bool
  | .selectEvent _ | .insertEvent .. => true
  | c => ofRedis c

theorem Agree.effect (h : Agree a b) {c : Cmd} (hc : ofIngest c = true) {r : Except Exn c.Resp}
    (heffect : effect 0 a c = some (r, a')) :
    ∃ b', EventAnalytics.effect 0 b c = some (r, b') ∧ Agree a' b' := by
  have haborted' := h.symm.aborted
  by_cases hredis : ofRedis c = true
  · obtain ⟨hevents, huncommitted, haborted⟩ := effect_ofRedis_rows hredis heffect
    refine ⟨{ a' with events := b.events, uncommitted := b.uncommitted }, ?_, rfl, ?_, ?_,
      h.alone', ?_⟩
    · rw [h.same, effect_ofRedis hredis, heffect]
      rfl
    · rw [hevents, huncommitted]
      exact h.rows
    · rw [huncommitted]
      exact h.alone
    · rw [haborted]
      exact h.aborted
  cases c <;> simp only [ofIngest, ofRedis, Bool.false_eq_true, not_true_eq_false] at hc hredis
  case selectEvent e =>
    simp only [EventAnalytics.effect, h.aborted, Bool.false_eq_true, if_false] at heffect
    cases heffect
    refine ⟨b, ?_, h⟩
    simp only [EventAnalytics.effect, haborted', Bool.false_eq_true, if_false]
    exact congrArg some (Prod.ext (congrArg Except.ok (h.sees e)) rfl)
  case insertEvent row origin =>
    have hinsert : ∀ {w : World}, (∀ jr ∈ w.uncommitted, jr.1 = 0) → w.aborted 0 = false →
        EventAnalytics.effect 0 w (.insertEvent row origin) =
          some (.ok !Workers.sees w row.eventId,
            withRow w (!Workers.sees w row.eventId) row) := fun {w} halone haborted =>
      @answered_insertEvent (fun _ => .ok) w row rfl haborted halone origin
    rw [hinsert h.alone h.aborted] at heffect
    cases heffect
    refine ⟨withRow b (!Workers.sees a row.eventId) row, ?_, ?_⟩
    · rw [hinsert h.alone' haborted', h.sees]
    have hown : ∀ {w : World} {inserted : Bool}, (∀ jr ∈ w.uncommitted, jr.1 = 0) →
        ∀ jr ∈ (withRow w inserted row).uncommitted, jr.1 = 0 := by
      intro w inserted halone jr hjr
      rcases List.mem_append.mp hjr with hjr | hjr
      · exact halone jr hjr
      · cases inserted <;> simp at hjr
        rw [hjr]
    refine ⟨?_, ?_, hown h.alone, hown h.alone', h.aborted⟩
    · have hsame := h.same
      generalize b.events = events, b.uncommitted = uncommitted at hsame
      subst hsame
      rfl
    · simp only [withRow, List.map_append, ← List.append_assoc, h.rows]

def closed (w : World) : World := (w.commitTx 0).rollbackTx 0

theorem closed_eq (halone : ∀ jr ∈ a.uncommitted, jr.1 = 0) (haborted : a.aborted 0 = false) :
    closed a = { a with
      events := a.events ++ a.uncommitted.map Prod.snd
      uncommitted := [] } := by
  have hown : a.ownRows 0 = a.uncommitted.map Prod.snd := by
    unfold World.ownRows
    rw [List.filter_eq_self.mpr fun jr hjr => by simp [halone jr hjr]]
  have hdrop : a.dropRows 0 = [] := by
    simpa [World.dropRows, List.filter_eq_nil_iff] using halone
  have hsession : setAt (setAt a.aborted 0 false) 0 false = a.aborted := by
    funext i
    by_cases hi : i = 0
    · rw [hi, setAt_self, haborted]
    · rw [setAt_ne _ _ hi, setAt_ne _ _ hi]
  have hcommit : a.commitTx 0 = { a with
      events := a.events ++ a.uncommitted.map Prod.snd
      uncommitted := []
      aborted := setAt a.aborted 0 false } := by
    simp only [World.commitTx, haborted, Bool.false_eq_true, if_false, hown, hdrop]
  rw [closed, hcommit, World.rollbackTx]
  simp only [hsession, World.dropRows, List.filter_nil]

/-- Where nothing is uncommitted, agreeing with the stores of a session is being what they
are when it has closed. -/
theorem Agree.closed_eq (h : Agree a b) (hnone : b.uncommitted = []) : b = closed a := by
  rw [Api.closed_eq h.alone h.aborted, ← h.rows, hnone, List.map_nil, List.append_nil]
  conv_lhs => rw [h.same, hnone]

theorem Agree.close (h : Agree a b) : Agree a (closed b) := by
  rw [Api.closed_eq h.alone' h.symm.aborted]
  refine ⟨?_, ?_, h.alone, by simp, h.aborted⟩
  · conv_lhs => rw [h.same]
  · rw [List.map_nil, List.append_nil]
    exact h.rows

end Agree

section Solo

variable {α : Type} {w w' : World}

theorem later_later (w : World) (ms ms' : Nat) :
    World.later (World.later w ms) ms' = World.later w (ms + ms') := by
  simp only [World.later, Nat.add_assoc]

theorem solo_await_iff {c : Cmd} {x : c.Resp} :
    Solo ticking .any 0 w (await c) (.ok x) w' ↔
      ∃ ms, effect 0 (World.later w ms) c = some (.ok x, w') := by
  constructor
  · intro h
    cases h with
    | @call _ w₁ _ _ _ r _ ms hadm hexec hrest =>
        cases r with
        | ok y =>
            cases hrest
            exact ⟨ms, hexec⟩
        | error e => cases hrest
  · rintro ⟨ms, hexec⟩
    exact Solo.perform ms rfl hexec

theorem solo_getDb_iff {handler : App α} {x : α} :
    Solo ticking .any 0 w (getDb handler) (.ok x) w' ↔
      ∃ w₁ ms, Solo ticking .any 0 w handler (.ok x) w₁ ∧ w' = World.later (closed w₁) ms := by
  constructor
  · intro h
    obtain ⟨y, w₃, htry, hclose⟩ := Solo.bind_inv h
    obtain ⟨u, w₄, hrollback, hret⟩ := Solo.bind_inv hclose
    cases hret
    obtain ⟨ms', hrollback⟩ := solo_await_iff.mp hrollback
    cases hrollback
    rcases htry.tryExcept_inv with hbody | ⟨e, w₁, -, hraise⟩
    · obtain ⟨y, w₁, hhandler, hrest⟩ := Solo.bind_inv hbody
      obtain ⟨u', w₂, hcommit, hret⟩ := Solo.bind_inv hrest
      cases hret
      obtain ⟨ms, hcommit⟩ := solo_await_iff.mp hcommit
      cases hcommit
      refine ⟨w₁, ms + ms', hhandler, ?_⟩
      rw [← later_later]
      rfl
    · obtain ⟨u', w₂, -, hnever⟩ := Solo.bind_inv hraise
      cases hnever
  · rintro ⟨w₁, ms, hhandler, rfl⟩
    have hcommit : Solo ticking .any 0 w₁ (await .commit) (.ok ())
        ((World.later w₁ ms).commitTx 0) := solo_await_iff.mpr ⟨ms, rfl⟩
    have hrollback : Solo ticking .any 0 ((World.later w₁ ms).commitTx 0) (await .rollback)
        (.ok ()) (World.later (closed w₁) ms) := solo_await_iff.mpr ⟨0, rfl⟩
    have hbody : Solo ticking .any 0 w (handler >>= fun r => await .commit >>= fun _ => pure r)
        (.ok x) ((World.later w₁ ms).commitTx 0) :=
      hhandler.bind rfl (hcommit.bind rfl .ret)
    exact (hbody.tryExcept rfl).bind rfl (hrollback.bind rfl .ret)

theorem solo_later {c : Cmd} {k : Except Exn c.Resp → App α} {r : Except Exn α} {ms : Nat}
    (h : Solo ticking .any 0 (World.later w ms) (.call c k) r w') :
    Solo ticking .any 0 w (.call c k) r w' := by
  cases h with
  | call ms' hadm hexec hrest =>
      refine .call (ms + ms') rfl ?_ hrest
      simpa only [ticking, later_later] using hexec

end Solo

section Batch

variable {py : Python} {settings : Settings} {request : Request} {a b w w' : World}
  {item : EventCreate} {items : List EventCreate} {rs : List EventIngestResult}

theorem Agree.ingestOne {ip userAgent : Option String} (h : Agree a b) {r : EventIngestResult}
    {a' : World}
    (hrun : Solo ticking .any 0 a (ingestOne py settings item ip userAgent) (.ok r) a') :
    ∃ b', Solo ticking .any 0 b (Services.ingestOne py settings item ip userAgent) (.ok r) b' ∧
      Agree a' b' := by
  have hissues : (Services.ingestOne py settings item ip userAgent).Issues fun c =>
      ofIngest c = true :=
    issues_ingestOne rfl (fun _ => rfl) rfl (fun _ => rfl) (fun _ => rfl) rfl
  exact hissues.transfer (fun c a b ms r a' hc hab hexec => (hab.later ms).effect hc hexec) hrun h

theorem Singly.later (h : Singly py settings request w items rs w') (ms : Nat) :
    Singly py settings request w items rs (World.later w' ms) := by
  induction h with
  | done ms' =>
      rw [later_later]
      exact .done _
  | post hpost _ ih => exact .post hpost ih

theorem tally_cons (acc : EventBatchResult) (r : EventIngestResult)
    (rs : List EventIngestResult) :
    tally { results := acc.results ++ [r]
            accepted := if r.deduplicated then acc.accepted else acc.accepted + 1
            deduplicated := if r.deduplicated then acc.deduplicated + 1 else acc.deduplicated }
      rs = tally acc (r :: rs) := by
  unfold tally
  rw [List.countP_cons, List.countP_cons, List.append_assoc]
  cases r.deduplicated <;> simp [Nat.add_assoc, Nat.add_comm]

/-- What the loop does in one transaction, single requests do one after another. -/
theorem singly_of_loop {acc res : EventBatchResult} (h : Agree a b) (hnone : b.uncommitted = [])
    (hrun : Solo ticking .any 0 a (ingestAll py settings request items acc) (.ok res) w') :
    ∃ rs b', Singly py settings request b items rs b' ∧ res = tally acc rs ∧ Agree w' b' ∧
      b'.uncommitted = [] := by
  induction items generalizing a b acc with
  | nil =>
      cases hrun
      refine ⟨[], b, ?_, ?_, h, hnone⟩
      · exact .done 0
      · simp [tally]
  | cons item items ih =>
      obtain ⟨r, a₁, hone, hrest⟩ := Solo.bind_inv hrun
      obtain ⟨b₁, hone', hagree⟩ := h.ingestOne hone
      have hempty : (closed b₁).uncommitted = [] := by
        rw [Api.closed_eq hagree.alone' hagree.symm.aborted]
      obtain ⟨rs, b', hsingly, hres, hlast, hnone'⟩ := ih hagree.close hempty hrest
      refine ⟨r :: rs, b', .post ?_ hsingly, ?_, hlast, hnone'⟩
      · exact solo_getDb_iff.mpr ⟨b₁, 0, hone', rfl⟩
      · rw [hres, tally_cons]

theorem loop_of_singly (h : Singly py settings request b items rs w') {ms : Nat}
    (hagree : Agree (World.later a ms) b) (hnone : b.uncommitted = []) (acc : EventBatchResult) :
    ∃ a' ms', Solo ticking .any 0 a (ingestAll py settings request items acc)
        (.ok (tally acc rs)) a' ∧ Agree (World.later a' ms') w' ∧ w'.uncommitted = [] := by
  induction h generalizing a ms acc with
  | done ms' =>
      refine ⟨a, ms + ms', ?_, ?_, hnone⟩
      · have hacc : tally acc [] = acc := by simp [tally]
        rw [hacc]
        exact .ret
      · rw [← later_later]
        exact hagree.later ms'
  | @post b b₂ w' item items r rs hpost _ ih =>
      obtain ⟨b₁, ms₁, hone, rfl⟩ := solo_getDb_iff.mp hpost
      obtain ⟨a₁, hone', hagree'⟩ := hagree.symm.ingestOne hone
      have hempty : (World.later (closed b₁) ms₁).uncommitted = [] := by
        rw [Api.closed_eq hagree'.alone hagree'.aborted]
        rfl
      obtain ⟨a', ms', hloop, hlast, hnone'⟩ := ih (hagree'.symm.close.later ms₁) hempty
        { results := acc.results ++ [r]
          accepted := if r.deduplicated then acc.accepted else acc.accepted + 1
          deduplicated := if r.deduplicated then acc.deduplicated + 1 else acc.deduplicated }
      rw [tally_cons] at hloop
      exact ⟨a', ms', (solo_later hone').bind rfl hloop, hlast, hnone'⟩

/-- A batch answers, and leaves the stores, as its events do that are posted one by one: in
either mode, whatever ids are repeated and whatever keys expire on the way. -/
theorem batch_iff_singly (py : Python) (settings : Settings) (request : Request)
    (events : List EventCreate) (hrest : AtRest w) (res : EventBatchResult) :
    Solo ticking .any 0 w (getDb (ingestAll py settings request events ⟨[], 0, 0⟩)) (.ok res) w' ↔
      Singly py settings request w events res.results w' ∧
        res.accepted = res.results.countP (fun r => !r.deduplicated) ∧
        res.deduplicated = res.results.countP (fun r => r.deduplicated) := by
  have hself : Agree w w := .refl (by simp [hrest.uncommitted]) hrest.aborted
  rw [solo_getDb_iff]
  constructor
  · rintro ⟨w₁, ms, hloop, rfl⟩
    obtain ⟨rs, b', hsingly, rfl, hlast, hnone⟩ := singly_of_loop hself hrest.uncommitted hloop
    rw [hlast.closed_eq hnone] at hsingly
    exact ⟨by simpa [tally] using hsingly.later ms, by simp [tally], by simp [tally]⟩
  · rintro ⟨hsingly, haccepted, hdeduplicated⟩
    have hstart : Agree (World.later w 0) w := hself
    obtain ⟨a', ms, hloop, hlast, hnone⟩ :=
      loop_of_singly hsingly hstart hrest.uncommitted ⟨[], 0, 0⟩
    refine ⟨a', ms, ?_, ?_⟩
    · have hres : tally ⟨[], 0, 0⟩ res.results = res := by
        simp [tally, ← haccepted, ← hdeduplicated]
      rwa [hres] at hloop
    · exact hlast.closed_eq hnone

/-- The second event of the batch is the first one again, a second later. -/
theorem batch_iff_singly_repeated :
    ∃ rs w', Singly (.ofTable [] []) Workers.syncMode ⟨none, none, none, "u1"⟩ (World.init 0)
        [{ eventId := 1, sessionId := "s1", eventType := .view },
          { eventId := 1, sessionId := "s2", eventType := .order }] rs w' ∧
      rs.map EventIngestResult.status = [.accepted, .deduplicated] ∧
      w'.events.map EventRow.serverTs = [5] := by
  obtain ⟨r, w', hrun, htest⟩ := exists_solo_of_run (M := ticking) (π := .any) (i := 0)
    [2, 3, 0, 0, 1000, 0, 7, 0] (World.init 0)
    (getDb (ingestAll (.ofTable [] []) Workers.syncMode ⟨none, none, none, "u1"⟩
      [{ eventId := 1, sessionId := "s1", eventType := .view },
        { eventId := 1, sessionId := "s2", eventType := .order }] ⟨[], 0, 0⟩))
    (fun r w' => decide (r.toOption.map (fun res => res.results.map EventIngestResult.status) =
      some [.accepted, .deduplicated] ∧ w'.events.map EventRow.serverTs = [5]))
    (by decide +kernel)
  obtain ⟨hstatus, hevents⟩ := of_decide_eq_true htest
  cases r with
  | error e => cases hstatus
  | ok res =>
      exact ⟨res.results, w',
        ((batch_iff_singly _ _ _ _ ⟨rfl, rfl⟩ res).mp hrun).1, Option.some.inj hstatus, hevents⟩

end Batch

end EventAnalytics.Api
