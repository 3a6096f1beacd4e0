import EventAnalytics.Api.Events
import EventAnalytics.IdemKeys
import EventAnalytics.Library.Auxiliary
import EventAnalytics.Workers.Tasks

/-! Who is told that an event is new. The answer of every call hangs on its
`SET NX`, in both modes, and Redis lets one of them win. -/
namespace EventAnalytics.Api

open Library Library.Discipline Services

inductive Task
  | single (request : Request) (body : EventCreate)
  | batch (request : Request) (events : List EventCreate)
  | pass

inductive Response
  | single (result : EventIngestResult) (status : Nat)
  | batch (result : EventBatchResult)
  | pass

def Response.results : Response → List EventIngestResult
  | .single result _ => [result]
  | .batch result => result.results
  | .pass => []

def Task.run (py : Python) (settings : Settings) : Task → App Response
  | .single request body => do
    let r ← createEvent py settings request body
    pure (.single r.1 r.2)
  | .batch request events => do
    let r ← createEventsBatch py settings request events
    pure (.batch r)
  | .pass => do
    let _ ← Workers.processEventStream py settings
    pure .pass

def service (py : Python) (settings : Nat → Settings) (tasks : Nat → Task) (w : World) :
    Config Cmd.Resp Exn World Response :=
  ⟨w, fun i => .ready ((tasks i).run py (settings i))⟩

def unexpired (e : UUID) : BackendPolicy where
  step := fun _ _ _ _ => true
  crash := fun _ _ _ => true
  env
    | .tick ms, w => !w.hasKey e || { w with clock := w.clock + ms }.hasKey e
    | .produce _, _ => true

def isWin (e : UUID) (r : EventIngestResult) : Bool :=
  r.eventId = e && !r.deduplicated

structure Tallied (res : EventBatchResult) : Prop where
  total : res.accepted + res.deduplicated = res.results.length
  accepted : res.accepted = res.results.countP fun r => !r.deduplicated

/-- What the answer to a batch says: one result per event, in order, and their
numbers. -/
structure Answers (events : List EventCreate) (res : EventBatchResult) : Prop where
  inOrder : res.results.map EventIngestResult.eventId = events.map EventCreate.eventId
  total : res.accepted + res.deduplicated = events.length
  accepted : res.accepted = res.results.countP fun r => !r.deduplicated

/-- The threads whose `SET NX` has created the key of `e`. -/
def winRecorder (e : UUID) : Recorder Cmd.Resp Exn World (List Nat) where
  step i _ c r _ wins :=
    match c, r with
    | .setNx e' _, .ok true => if e' = e then wins ++ [i] else wins
    | _, _ => wins
  crash _ _ wins := wins

/-- Nobody has won, or one has and the key is there to show it. -/
def OneWin (e : UUID) (w : World × List Nat) : Prop :=
  w.2.length ≤ 1 ∧ (w.2 ≠ [] → w.1.hasKey e = true)

section Sound

variable {e : UUID} {i : Nat} {w : World × List Nat}

theorem exec_wins {ch : Choice} {c : Cmd} {r : Except Exn c.Resp} {v : World × List Nat}
    (hexec : (backend.recorded (winRecorder e)).exec i ch w c = some (r, v)) :
    (v.2 = w.2 ++ [i] ∧ w.1.hasKey e = false ∧ v.1.hasKey e = true) ∨
      (v.2 = w.2 ∧ (w.1.hasKey e = true → v.1.hasKey e = true)) := by
  obtain ⟨hexec, hwins⟩ := Machine.exec_recorded hexec
  have hsame : v.2 = w.2 → v.2 = w.2 ∧ (w.1.hasKey e = true → v.1.hasKey e = true) :=
    fun h => ⟨h, fun hkey => exec_hasKey hkey hexec⟩
  cases c with
  | setNx e' ttl =>
      rcases exec_setNx hexec with ⟨rfl, -⟩ | ⟨rfl, hfree, httl, hv⟩ | ⟨exc, rfl, -⟩ |
        ⟨exc, rfl, -⟩
      · exact .inr (hsame hwins)
      · by_cases he : e' = e
        · subst he
          refine .inl ⟨hwins.trans (if_pos rfl), hfree, ?_⟩
          rw [hv]
          exact World.hasKey_setKey_self httl
        · exact .inr (hsame (hwins.trans (if_neg he)))
      · exact .inr (hsame hwins)
      · exact .inr (hsame hwins)
  | _ => exact .inr (hsame hwins)

theorem OneWin.exec (h : OneWin e w) {ch : Choice} {c : Cmd} {r : Except Exn c.Resp}
    {v : World × List Nat}
    (hexec : (backend.recorded (winRecorder e)).exec i ch w c = some (r, v)) :
    OneWin e v ∧ ∀ j, j ≠ i → v.2.count j = w.2.count j := by
  rcases exec_wins hexec with ⟨hwins, hfree, hkey⟩ | ⟨hwins, hkey⟩
  · have hnone : w.2 = [] := by
      by_contra hne
      simp [h.2 hne] at hfree
    refine ⟨⟨by simp [hwins, hnone], fun _ => hkey⟩, fun j hj => ?_⟩
    simp [hwins, Ne.symm hj]
  · exact ⟨⟨hwins ▸ h.1, fun hne => hkey (h.2 (hwins ▸ hne))⟩, fun j _ => by rw [hwins]⟩

end Sound

def winning (e : UUID) : Discipline Cmd.Resp Exn (World × List Nat) Choice EnvAct where
  machine := backend.recorded (winRecorder e)
  policy := (unexpired e).recorded (List Nat)
  inv := OneWin e
  rely := fun i w w' => w'.2.count i = w.2.count i
  duty := fun _ _ _ => True
  rely_refl := fun _ _ => rfl
  rely_trans := fun _ _ _ _ hab hbc => hbc.trans hab
  step_sound := fun _ _ _ _ _ _ _ hinv _ hexec => hinv.exec hexec
  crash_sound := fun _ _ _ _ hinv => ⟨hinv, fun _ _ => rfl⟩
  env_sound := fun act w w' hadm hinv henv => by
    obtain ⟨w₁, henv, rfl⟩ := Option.map_eq_some_iff.mp henv
    cases act with
    | produce entry =>
        cases henv
        exact ⟨hinv, fun _ => rfl⟩
    | tick ms =>
        cases henv
        refine ⟨⟨hinv.1, fun hne => ?_⟩, fun _ => rfl⟩
        simpa [Policy.recorded, unexpired, hinv.2 hne] using hadm

section Request

variable {e : UUID} {i n : Nat} {w : World × List Nat} {py : Python} {settings : Settings}

theorem wp_wins {α : Type} (p : App α) (hn : n ≤ w.2.count i) :
    (winning e).wp i p (ends (fun _ w' => n ≤ w'.2.count i) fun _ _ => True) w := by
  induction p generalizing w with
  | ret a => exact hn
  | raise exc => trivial
  | call c k ih =>
      refine ⟨trivial, fun _ _ _ => trivial, fun ch r w' _ hexec w'' hw'' => ih r ?_⟩
      rw [hw''.2]
      rcases exec_wins hexec with ⟨hwins, -⟩ | ⟨hwins, -⟩
      · rw [hwins, List.count_append]
        omega
      · rwa [hwins]

theorem wp_ingestOne_win (payload : EventCreate) (ip userAgent : Option String)
    (hn : n ≤ w.2.count i) :
    (winning e).wp i (ingestOne py settings payload ip userAgent)
      (ends
        (fun r w' => r.eventId = payload.eventId ∧ n + [r].countP (isWin e) ≤ w'.2.count i)
        fun _ _ => True) w := by
  unfold ingestOne claimIdempotency alreadyInDb
  refine wp_seq
    (S := fun claimed w' => n + (if claimed = true ∧ payload.eventId = e then 1 else 0) ≤
      w'.2.count i)
    (wp_perform trivial (fun _ _ _ => trivial) ?_) ?_
  · intro ch r w' _ hexec w'' hw''
    cases r with
    | error exc => trivial
    | ok claimed =>
        change _ ≤ w''.2.count i
        rw [hw''.2, (Machine.exec_recorded hexec).2]
        cases claimed with
        | false => simpa [winRecorder] using hn
        | true =>
            by_cases he : payload.eventId = e
            · simpa [winRecorder, he] using hn
            · simpa [winRecorder, he] using hn
  intro claimed w₁ hn₁
  cases claimed with
  | false =>
      simp only [Bool.not_false, if_true]
      apply wp_seq (wp_wins _ (n := n) (by simpa using hn₁))
      intro found w₂ hn₂
      cases found <;> exact ⟨rfl, by simpa [isWin] using hn₂⟩
  | true =>
      simp only [Bool.not_true, Bool.false_eq_true, if_false]
      have hwon : ∀ (status : IngestStatus) (dedup : Bool) (mode : IngestMode)
          (w' : World × List Nat),
          n + (if payload.eventId = e then 1 else 0) ≤ w'.2.count i →
          n + [(⟨payload.eventId, status, dedup, mode⟩ : EventIngestResult)].countP (isWin e) ≤
            w'.2.count i := by
        intro status dedup mode w' hw'
        refine le_trans (Nat.add_le_add_left ?_ n) hw'
        by_cases he : payload.eventId = e <;> cases dedup <;> simp [isWin, he]
      simp only [true_and] at hn₁
      split
      · exact wp_seq (wp_wins _ hn₁) fun _ w₂ hn₂ => ⟨rfl, hwon _ _ _ _ hn₂⟩
      · unfold ingestSync
        apply wp_seq (wp_wins _ hn₁)
        intro serverTs w₂ hn₂
        apply wp_seq (wp_wins _ hn₂)
        intro inserted w₃ hn₃
        apply wp_seq (wp_wins _ hn₃)
        intro _ w₄ hn₄
        cases inserted <;> exact ⟨rfl, hwon _ _ _ _ hn₄⟩

structure Progress (e : UUID) (i : Nat) (done : List UUID) (acc : EventBatchResult)
    (w : World × List Nat) : Prop where
  inOrder : acc.results.map EventIngestResult.eventId = done
  tallied : Tallied acc
  wins : acc.results.countP (isWin e) ≤ w.2.count i

theorem wp_ingestAll_win {request : Request} (events : List EventCreate) {done : List UUID}
    {acc : EventBatchResult} (hacc : Progress e i done acc w) :
    (winning e).wp i (ingestAll py settings request events acc)
      (ends (fun res w' => Progress e i (done ++ events.map EventCreate.eventId) res w')
        fun _ _ => True) w := by
  induction events generalizing w done acc with
  | nil => simpa [ingestAll, ends] using hacc
  | cons item events ih =>
      unfold ingestAll
      apply wp_seq (wp_ingestOne_win item _ _ hacc.wins)
      intro r w' ⟨hid, hwins⟩
      have htotal := hacc.tallied.total
      have haccepted := hacc.tallied.accepted
      have hsplit : done ++ (item :: events).map EventCreate.eventId =
          done ++ [item.eventId] ++ events.map EventCreate.eventId := by
        simp
      rw [hsplit]
      apply ih
      refine ⟨by simp [hacc.inOrder, hid], ⟨?_, ?_⟩, ?_⟩
      · cases hr : r.deduplicated <;> simp <;> omega
      · cases hr : r.deduplicated <;> simp [hr, haccepted, List.countP_append]
      · rw [List.countP_append]
        exact hwins

theorem wp_getDb_win {α : Type} {handler : App α} {P : α → Prop} {f : α → Nat}
    (h : (winning e).wp i handler (ends (fun a w' => P a ∧ f a ≤ w'.2.count i)
      fun _ _ => True) w) :
    (winning e).wp i (getDb handler) (ends (fun a w' => P a ∧ f a ≤ w'.2.count i)
      fun _ _ => True) w := by
  unfold getDb Db.getDb Db.withSession
  refine wp_seq (S := fun a w' => P a ∧ f a ≤ w'.2.count i)
    (wp_try (F := fun _ _ => True) ?_ fun exc w₁ _ => ?_) fun a w₁ ⟨ha, hf⟩ => ?_
  · apply wp_seq h
    intro a w₁ ⟨ha, hf⟩
    exact wp_seq (wp_wins _ hf) fun _ w₂ hf₂ => ⟨ha, hf₂⟩
  · exact wp_seq (wp_wins _ (Nat.zero_le _)) fun _ _ _ => trivial
  · exact wp_seq (wp_wins _ hf) fun _ w₂ hf₂ => ⟨ha, hf₂⟩

end Request

/-- What a finished thread has answered: to a batch what `Answers` says, and no
more wins than it has. -/
def Answered (e : UUID) (i : Nat) (task : Task) (res : Response) (w : World × List Nat) : Prop :=
  (∀ request events batch, task = .batch request events → res = .batch batch →
    Answers events batch) ∧ res.results.countP (isWin e) ≤ w.2.count i

theorem wp_task {e : UUID} {i : Nat} {w : World × List Nat} (py : Python) (settings : Settings)
    (task : Task) :
    (winning e).wp i (task.run py settings) (ends (Answered e i task) fun _ _ => True) w := by
  cases task with
  | pass =>
      exact wp_seq (wp_wins _ (Nat.zero_le _)) fun _ w' _ => ⟨by simp, by simp [Response.results]⟩
  | single request body =>
      refine wp_seq (S := fun r w' => True ∧ [r.1].countP (isWin e) ≤ w'.2.count i)
        (wp_getDb_win ?_) fun r w' hr => ⟨by simp, hr.2⟩
      apply wp_seq (wp_wins _ (Nat.zero_le _))
      intro _ w₁ hn
      refine wp_seq (wp_ingestOne_win body _ _ hn) fun r w₂ hr => ⟨trivial, ?_⟩
      simpa using hr.2
  | batch request events =>
      refine wp_seq (S := fun res w' => Answers events res ∧
          res.results.countP (isWin e) ≤ w'.2.count i)
        (wp_getDb_win ?_) fun res w' hres => ⟨?_, hres.2⟩
      · apply wp_seq (wp_wins _ (Nat.zero_le _))
        intro _ w₁ hn
        refine wp_ends_mono (fun res w' h => ?_) (fun _ _ h => h)
          (wp_ingestAll_win events ⟨rfl, ⟨rfl, rfl⟩, Nat.zero_le _⟩)
        have hlength := congrArg List.length h.inOrder
        rw [List.length_map, List.map_nil, List.nil_append, List.length_map] at hlength
        exact ⟨⟨h.inOrder, h.tallied.total.trans hlength, h.tallied.accepted⟩, h.wins⟩
      · rintro _ _ _ ⟨⟩ ⟨⟩
        exact hres.1

theorem eq_of_countP_le_one {α : Type} {P : α → Bool} {l : List α} (hl : l.countP P ≤ 1)
    {p q : Nat} {a b : α} (hp : l[p]? = some a) (hq : l[q]? = some b) (ha : P a = true)
    (hb : P b = true) : p = q := by
  induction l generalizing p q with
  | nil => simp at hp
  | cons x l ih =>
      have hpos : ∀ {r c}, l[r]? = some c → P c = true → 0 < l.countP P := fun hr hc =>
        List.countP_pos_iff.mpr ⟨_, List.mem_of_getElem? hr, hc⟩
      rw [List.countP_cons] at hl
      cases p with
      | zero =>
          cases q with
          | zero => rfl
          | succ q =>
              cases hp
              have := hpos hq hb
              simp only [ha, if_true] at hl
              omega
      | succ p =>
          cases q with
          | zero =>
              cases hq
              have := hpos hp ha
              simp only [hb, if_true] at hl
              omega
          | succ q => exact congrArg Nat.succ (ih (le_of_add_le_left hl) hp hq)

/-- Thread `i` has returned, and at position `p` calls `e` new. -/
def WinsAt (cfg : Config Cmd.Resp Exn World Response) (e : UUID) (i p : Nat) : Prop :=
  ∃ res r, cfg.threads i = .running (.ret res) ∧ res.results[p]? = some r ∧
    r.eventId = e ∧ r.deduplicated = false

/-- However requests and passes overlap, fail and crash while the key of `e` does
not expire, `e` is called new at most once, and every batch that returns accounts
for its events. -/
theorem one_winner_of_unexpired (py : Python) (settings : Nat → Settings) (tasks : Nat → Task)
    (e : UUID) {w : World} {cfg : Config Cmd.Resp Exn World Response}
    (hreach : Reach backend (unexpired e) (service py settings tasks w) cfg) :
    (∀ i p j q, WinsAt cfg e i p → WinsAt cfg e j q → i = j ∧ p = q) ∧
      ∀ i request events res, tasks i = .batch request events →
        cfg.threads i = .running (.ret (.batch res)) → Answers events res := by
  obtain ⟨wins, hrecorded⟩ := hreach.recorded (winRecorder e) []
  have hkeeps := (keeps_ready (D := winning e) (w := (w, [])) ⟨by simp, by simp⟩
    (fun i => (tasks i).run py (settings i)) fun i w' _ => wp_task py (settings i)
      (tasks i)).reach hrecorded
  have hinv : OneWin e (cfg.world, wins) := hkeeps.inv
  have hanswered : ∀ i res, cfg.threads i = .running (.ret res) →
      Answered e i (tasks i) res (cfg.world, wins) := fun i res ht => hkeeps.returned ht
  refine ⟨?_, fun i request events res htask ht => (hanswered i _ ht).1 _ _ _ htask rfl⟩
  rintro i p j q ⟨res, r, hti, hp, hre, hrd⟩ ⟨res', r', htj, hq, hre', hrd'⟩
  have hi := (hanswered i res hti).2
  have hj := (hanswered j res' htj).2
  have hwin : isWin e r = true := by simp [isWin, hre, hrd]
  have hwin' : isWin e r' = true := by simp [isWin, hre', hrd']
  have hcount : ∀ k, wins.count k ≤ 1 := fun k => List.count_le_length.trans hinv.1
  have hij : i = j := by
    have hmem : i ∈ wins := List.count_pos_iff.mp
      (hi.trans_lt' (List.countP_pos_iff.mpr ⟨r, List.mem_of_getElem? hp, hwin⟩))
    have hmem' : j ∈ wins := List.count_pos_iff.mp
      (hj.trans_lt' (List.countP_pos_iff.mpr ⟨r', List.mem_of_getElem? hq, hwin'⟩))
    obtain ⟨k, rfl⟩ := List.length_eq_one_iff.mp
      (le_antisymm hinv.1 (List.length_pos_of_mem hmem))
    exact (List.mem_singleton.mp hmem).trans (List.mem_singleton.mp hmem').symm
  subst hij
  cases hti.symm.trans htj
  exact ⟨rfl, eq_of_countP_le_one (hi.trans (hcount i)) hp hq hwin hwin'⟩

def twiceAndOnce (i : Nat) : Task :=
  if i = 0 then
    .batch ⟨some "10.0.0.1", none, none, "u1"⟩
      [{ eventId := 1, sessionId := "s1", eventType := .view },
        { eventId := 1, sessionId := "s1", eventType := .view }]
  else
    .single ⟨some "10.0.0.2", none, none, "u2"⟩
      { eventId := 1, sessionId := "s2", eventType := .order }

set_option maxRecDepth 10000 in
/-- The single request claims the event between the limiter and the loop of the
batch, and is the one winner. -/
theorem one_winner_of_unexpired_overtaken :
    ∃ cfg, Reach backend (unexpired 1)
        (service (.ofTable [] []) (fun _ => {}) twiceAndOnce (World.init 0)) cfg ∧
      WinsAt cfg 1 1 0 ∧
      (∀ i p j q, WinsAt cfg 1 i p → WinsAt cfg 1 j q → i = j ∧ p = q) ∧
        ∀ i request events res, twiceAndOnce i = .batch request events →
          cfg.threads i = .running (.ret (.batch res)) → Answers events res := by
  obtain ⟨cfg, hreach, htest⟩ := exists_reach_of_run (M := backend) (π := unexpired 1)
    (.start 0 :: List.replicate 9 (.step 0 .ok) ++ .start 1 :: List.replicate 10 (.step 1 .ok) ++
      List.replicate 6 (.step 0 .ok) ++ List.replicate 3 (.step 1 .ok))
    (service (.ofTable [] []) (fun _ => {}) twiceAndOnce (World.init 0))
    (fun cfg =>
      (cfg.threads 0).result?.map (·.results.map (·.deduplicated)) = some [true, true] &&
      (cfg.threads 1).result?.map (·.results) = some [⟨1, .queued, false, .async⟩])
    (by decide +kernel)
  simp only [Bool.and_eq_true, decide_eq_true_eq, Option.map_eq_some_iff] at htest
  obtain ⟨-, res, hsingle, hresults⟩ := htest
  exact ⟨cfg, hreach,
    ⟨res, _, Thread.result?_eq_some.mp hsingle, by rw [hresults]; rfl, rfl, rfl⟩,
    one_winner_of_unexpired _ _ _ 1 hreach⟩

end EventAnalytics.Api
