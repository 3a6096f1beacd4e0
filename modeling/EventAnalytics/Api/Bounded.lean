import EventAnalytics.Api.Provenance
import EventAnalytics.Library.Refinement
import EventAnalytics.Redis.Trimming

/-! The bounds that `enqueue_event` and `dead_letter` put on the streams. Requests and
passes on bounded streams run as they run on unbounded ones, as long as no entry that the
group has not settled has `event_stream_maxlen` entries behind it. -/
namespace EventAnalytics.Api

open Library Redis

structure Bounds where
  eventStreamMaxlen : Nat := 1000000
  eventDlqMaxlen : Nat := 100000
  deriving DecidableEq, Repr

/-- What `XADD ... MAXLEN ~` removes besides. The dead-letter stream has no group. -/
def trimAfter (bounds : Bounds) (n : Nat) : Cmd → World → World
  | .xadd _, w => { w with stream := w.stream.trimTo bounds.eventStreamMaxlen n }
  | .xaddDlq _, w =>
    { w with dlq := w.dlq.drop (min n (w.dlq.length - bounds.eventDlqMaxlen)) }
  | _, w => w

/-- The same stores under the bounds of each thread. The choice also says how much the
server trims, once the command has reached it. -/
def boundedBackend (bounds : Nat → Bounds) :
    Machine Cmd.Resp Exn World (Choice × Nat) EnvAct where
  exec i ch w c := (backend.exec i ch.1 w c).map fun rw =>
    (rw.1, if ch.1 = .raiseBefore then rw.2 else trimAfter (bounds i) ch.2 c rw.2)
  crash := backend.crash
  env := backend.env

/-- No `XADD` finds the stream crowded. -/
def uncrowded (bounds : Nat → Bounds) : Policy Cmd World (Choice × Nat) EnvAct where
  step
    | i, ch, w, .xadd _ => ch.1 = .raiseBefore || w.stream.uncrowded (bounds i).eventStreamMaxlen
    | _, _, _, _ => true
  crash := fun _ _ _ => true
  env := fun _ _ => true

/-- The worlds differ in what was trimmed. -/
def Overlaid (w v : World) : Prop :=
  ∃ s d, w = { v with stream := s, dlq := d } ∧ s.Trimmed v.stream ∧ d <:+ v.dlq

/-- The lengths of the streams are the only answers that tell of it. -/
def blind : (c : Cmd) → c.Resp → c.Resp → Prop
  | .xlen, _, _ => True
  | .xlenDlq, _, _ => True
  | _, a, b => a = b

def streamed : Cmd → Bool
  | .xadd _ | .xreadgroup .. | .xautoclaim .. | .xpendingRange _ | .xack .. | .xdel _
  | .xaddDlq _ | .xlen | .xlenDlq | .xinfoGroups => true
  | _ => false

section Exec

variable {i : Nat} {v : World} {s : Stream} {d : List DeadLetter}

theorem effect_beside {c : Cmd} (hc : streamed c = false) :
    effect i { v with stream := s, dlq := d } c =
      (effect i v c).map fun rw => (rw.1, { rw.2 with stream := s, dlq := d }) := by
  cases c <;> cases hc <;>
    simp only [effect, apply_ite (Option.map _), Option.map_some, Option.map_none]
  case setXx.refl e ttl =>
    have hkey : World.hasKey { v with stream := s, dlq := d } e = v.hasKey e := rfl
    rw [hkey]
    cases v.hasKey e <;> rfl
  all_goals rfl

theorem exec_beside {c : Cmd} (hc : streamed c = false) (ch : Choice) :
    backend.exec i ch { v with stream := s, dlq := d } c =
      (backend.exec i ch v c).map fun rw => (rw.1, { rw.2 with stream := s, dlq := d }) := by
  cases ch with
  | ok => exact effect_beside hc
  | raiseBefore => cases c <;> cases hc <;> rfl
  | raiseAfter =>
      have hafter : ((effect i { v with stream := s, dlq := d } c).map Prod.snd).getD
            { v with stream := s, dlq := d } =
          { ((effect i v c).map Prod.snd).getD v with stream := s, dlq := d } := by
        rw [effect_beside hc]
        cases effect i v c <;> rfl
      have hexec : ∀ w : World, afterEffect i w c = ((effect i w c).map Prod.snd).getD w →
          backend.exec i .raiseAfter w c =
            some (.error c.fault, ((effect i w c).map Prod.snd).getD w) := by
        intro w hw
        rw [← hw]
        rfl
      cases c <;> cases hc <;> first | rfl | rw [hexec _ rfl, hexec _ rfl, hafter]; rfl

/-- What a command on the streams does: the same on both sides, but for the lengths. -/
theorem effect_streamed {c : Cmd} (hc : streamed c = true) (hs : s.Trimmed v.stream)
    (hd : d <:+ v.dlq) :
    ∃ a b s' d' u' e',
      effect i { v with stream := s, dlq := d } c =
          some (.ok a, { v with stream := s', dlq := d' }) ∧
        effect i v c = some (.ok b, { v with stream := u', dlq := e' }) ∧
        blind c a b ∧ s'.Trimmed u' ∧ d' <:+ e' := by
  cases c <;> cases hc
  case xadd.refl data =>
    obtain ⟨hid, htrimmed⟩ := hs.xadd ⟨some data⟩
    exact ⟨_, _, _, _, _, _, rfl, rfl, hid, htrimmed, hd⟩
  case xreadgroup.refl consumer count =>
    obtain ⟨hentries, htrimmed⟩ := hs.xreadgroup v.clock consumer count
    exact ⟨_, _, _, _, _, _, rfl, rfl, hentries, htrimmed, hd⟩
  case xautoclaim.refl consumer minIdle count =>
    obtain ⟨hentries, htrimmed⟩ := hs.xautoclaim v.clock minIdle consumer count
    exact ⟨_, _, _, _, _, _, rfl, rfl, hentries, htrimmed, hd⟩
  case xpendingRange.refl count =>
    have hcounts : s.xpendingRange count = v.stream.xpendingRange count := by
      simp only [Stream.xpendingRange, hs.pel]
    exact ⟨_, _, _, _, _, _, rfl, rfl, hcounts, hs, hd⟩
  case xack.refl ids acker => exact ⟨_, _, _, _, _, _, rfl, rfl, rfl, hs.xack ids, hd⟩
  case xdel.refl id => exact ⟨_, _, _, _, _, _, rfl, rfl, rfl, hs.xdel id, hd⟩
  case xaddDlq.refl body =>
    obtain ⟨before, hbefore⟩ := hd
    refine ⟨_, _, _, _, _, _, rfl, rfl, rfl, hs, before, ?_⟩
    rw [← hbefore, List.append_assoc]
  case xlen.refl => exact ⟨_, _, _, _, _, _, rfl, rfl, trivial, hs, hd⟩
  case xlenDlq.refl => exact ⟨_, _, _, _, _, _, rfl, rfl, trivial, hs, hd⟩
  case xinfoGroups.refl => exact ⟨_, _, _, _, _, _, rfl, rfl, congrArg List.length hs.pel, hs, hd⟩

theorem exec_streamed {c : Cmd} (hc : streamed c = true) (hs : s.Trimmed v.stream)
    (hd : d <:+ v.dlq) {ch : Choice} {r : Except Exn c.Resp} {w : World}
    (hexec : backend.exec i ch { v with stream := s, dlq := d } c = some (r, w)) :
    ∃ r' v', backend.exec i ch v c = some (r', v') ∧ SameAnswer blind c r r' ∧
      Overlaid w v' := by
  obtain ⟨a, b, s', d', u', e', heff, heff', hblind, hs', hd'⟩ :=
    effect_streamed (i := i) hc hs hd
  cases ch with
  | ok =>
      cases heff.symm.trans hexec
      exact ⟨_, _, heff', hblind, s', d', rfl, hs', hd'⟩
  | raiseBefore =>
      have hbefore : ∀ w, beforeEffect i w c = w := by
        intro w
        cases c <;> cases hc <;> rfl
      simp only [backend, hbefore, Option.some.injEq, Prod.mk.injEq] at hexec ⊢
      obtain ⟨rfl, rfl⟩ := hexec
      exact ⟨_, _, ⟨rfl, rfl⟩, rfl, s, d, rfl, hs, hd⟩
  | raiseAfter =>
      have hafter : ∀ w, afterEffect i w c = ((effect i w c).map Prod.snd).getD w := by
        intro w
        cases c <;> cases hc <;> rfl
      simp only [backend, hafter, heff, heff', Option.map_some, Option.getD_some,
        Option.some.injEq, Prod.mk.injEq] at hexec ⊢
      obtain ⟨rfl, rfl⟩ := hexec
      exact ⟨_, _, ⟨rfl, rfl⟩, rfl, s', d', rfl, hs', hd'⟩

end Exec

theorem sameAnswer_refl {c : Cmd} (r : Except Exn c.Resp) : SameAnswer blind c r r := by
  cases r with
  | error exc => rfl
  | ok a => cases c <;> trivial

theorem exec_overlaid {i : Nat} {w v w' : World} (h : Overlaid w v) {ch : Choice} {c : Cmd}
    {r : Except Exn c.Resp} (hexec : backend.exec i ch w c = some (r, w')) :
    ∃ r' v', backend.exec i ch v c = some (r', v') ∧ SameAnswer blind c r r' ∧
      Overlaid w' v' := by
  obtain ⟨s, d, rfl, hs, hd⟩ := h
  cases hc : streamed c with
  | true => exact exec_streamed hc hs hd hexec
  | false =>
      rw [exec_beside hc] at hexec
      obtain ⟨⟨r', v'⟩, hexec', heq⟩ := Option.map_eq_some_iff.mp hexec
      have hsame := exec_beside (i := i) (v := v) (s := v.stream) (d := v.dlq) hc ch
      rw [hexec'] at hsame
      have hv' : v' = { v' with stream := v.stream, dlq := v.dlq } :=
        congrArg Prod.snd (Option.some.inj hsame)
      cases heq
      refine ⟨_, v', hexec', sameAnswer_refl _, s, d, rfl, ?_, ?_⟩
      · rw [hv']
        exact hs
      · rw [hv']
        exact hd

theorem overlaid_trimAfter {bounds : Bounds} {n : Nat} {c : Cmd} {w v : World}
    (h : Overlaid w v)
    (hsettled : ∀ data, c = .xadd data → ∀ ie ∈ w.stream.entries,
      bounds.eventStreamMaxlen ≤ w.stream.behind ie.1 → w.stream.Settled ie.1) :
    Overlaid (trimAfter bounds n c w) v := by
  obtain ⟨s, d, rfl, hs, hd⟩ := h
  cases c
  case xadd data =>
    refine ⟨_, d, rfl, hs.trim fun id hid => ?_, hd⟩
    obtain ⟨ie, hie, rfl⟩ := List.mem_map.mp hid
    exact hsettled data rfl ie (List.mem_of_mem_take hie) (Stream.le_behind_of_trimTo hie)
  case xaddDlq body => exact ⟨s, _, rfl, hs, (List.drop_suffix _ _).trans hd⟩
  all_goals exact ⟨s, d, rfl, hs, hd⟩

/-- As long as the stream is not crowded, the bounds refine the stores without them. -/
theorem bounded_refines (bounds : Nat → Bounds) :
    Refines (boundedBackend bounds) (uncrowded bounds) backend .any blind Overlaid where
  exec := by
    intro i ch w v c r w' hrel hadm hexec
    obtain ⟨⟨r₁, w₁⟩, hbackend, heq⟩ := Option.map_eq_some_iff.mp hexec
    cases heq
    obtain ⟨r', v', hexec', hsame, hoverlaid⟩ := exec_overlaid hrel hbackend
    refine ⟨ch.1, r', v', rfl, hexec', hsame, ?_⟩
    dsimp only
    split
    · exact hoverlaid
    · rename_i hreached
      apply overlaid_trimAfter hoverlaid
      rintro data rfl ie hie hbehind
      simp only [uncrowded, hreached, decide_false, Bool.false_or] at hadm
      obtain ⟨ch, n⟩ := ch
      cases ch with
      | raiseBefore => exact absurd rfl hreached
      | ok =>
          cases hbackend
          exact Stream.settled_of_uncrowded (s := w.stream) hadm hie hbehind
      | raiseAfter =>
          cases hbackend
          exact Stream.settled_of_uncrowded (s := w.stream) hadm hie hbehind
  crash := by
    rintro i w v c ⟨s, d, rfl, hs, hd⟩ -
    exact ⟨rfl, s, d, rfl, hs, hd⟩
  env := by
    rintro act w v w' ⟨s, d, rfl, hs, hd⟩ - henv
    cases act with
    | tick ms =>
        cases henv
        exact ⟨_, rfl, rfl, s, d, rfl, hs, hd⟩
    | produce entry =>
        cases henv
        exact ⟨_, rfl, rfl, _, d, rfl, (hs.xadd entry).2, hd⟩

section Alike

variable {py : Python} {settings : Settings}

theorem seen_alike {N : Cmd → Prop} (hN : ∀ c, N c → c ≠ .xlen ∧ c ≠ .xlenDlq) (c : Cmd)
    (hc : N c) (r r' : Except Exn c.Resp) (h : SameAnswer blind c r r') :
    r = r' ∧ hands (fun _ => True) c r := by
  have hseen := hN c hc
  refine ⟨?_, ?_⟩
  · cases r <;> cases r' <;> simp only [SameAnswer] at h
    · rw [h]
    · cases c <;> first | exact congrArg Except.ok h | simp at hseen
  · cases c <;> cases r <;> simp [hands]

theorem alike_streamStats :
    Mq.streamStats.Alike blind (fun _ _ => True) Mq.streamStats := by
  unfold Mq.streamStats
  refine Prog.Alike.bind (Prog.alike_perform _) fun _ _ _ => ?_
  refine Prog.Alike.bind (Prog.Alike.tryExcept (Prog.alike_perform _) fun _ => .ret trivial)
    fun _ _ _ => ?_
  exact Prog.Alike.bind (Prog.Alike.tryExcept (Prog.alike_perform _) fun _ => .ret rfl)
    fun _ _ _ => .ret trivial

/-- A pass reads the lengths of the streams and does nothing with them. -/
theorem alike_processEventStream :
    (Workers.processEventStream py settings).Alike blind Eq
      (Workers.processEventStream py settings) := by
  have hroutine : ∀ c, routine c = true → c ≠ .xlen ∧ c ≠ .xlenDlq := by
    intro c hc
    cases c <;> simp [routine] at hc ⊢
  have hyields : ∀ payload, Yields py (fun c => c ≠ .xlen ∧ c ≠ .xlenDlq) payload :=
    fun _ _ _ _ _ _ _ => ⟨by simp, by simp⟩
  have halike : ∀ {α : Type} {p : App α}, p.Issues (fun c => c ≠ .xlen ∧ c ≠ .xlenDlq) →
      p.Alike blind Eq p := fun hp =>
    (hp.relays (R := fun _ => True) fun _ => trivial).alike (seen_alike fun _ hc => hc)
  unfold Workers.processEventStream
  refine Prog.Alike.bind ((relays_readEventsBatch (S := fun _ => True) hroutine
    (fun _ payload _ _ => hyields payload) _).alike (seen_alike fun _ hc => hc)) ?_
  rintro fresh _ rfl
  refine Prog.Alike.bind ((relays_reclaimStaleMessages (S := fun _ => True) hroutine
    (fun _ payload _ _ => hyields payload) _).alike (seen_alike fun _ hc => hc)) ?_
  rintro reclaimed _ rfl
  have hwork : ∀ message ∈ fresh.map (fun md => (md.1, md.2, 1)) ++ reclaimed,
      Yields py (fun c => c ≠ .xlen ∧ c ≠ .xlenDlq) message.2.1 :=
    fun message _ => hyields message.2.1
  obtain ⟨hsession, hack⟩ := issues_persistWork hroutine settings hwork
  dsimp only
  split
  · exact Prog.Alike.bind alike_streamStats fun _ _ _ => .ret rfl
  · refine Prog.Alike.bind (halike hsession) ?_
    rintro acc _ rfl
    exact Prog.Alike.bind (halike (hack _)) fun _ _ _ =>
      Prog.Alike.bind alike_streamStats fun _ _ _ => .ret rfl

theorem alike_task (task : Task) :
    (task.run py settings).Alike blind Eq (task.run py settings) := by
  have hroutine : ∀ c, routine c = true → c ≠ .xlen ∧ c ≠ .xlenDlq := by
    intro c hc
    cases c <;> simp [routine] at hc ⊢
  by_cases htask : task = .pass
  · subst htask
    exact Prog.Alike.bind alike_processEventStream fun _ _ _ => .ret rfl
  · have hissues : (task.run py settings).Issues fun c => c ≠ .xlen ∧ c ≠ .xlenDlq :=
      issues_request (fun c hc => hroutine c (routine_of_requested hc))
        (fun post _ => ⟨fun serverTs => ⟨by simp, by simp⟩, by simp, by simp⟩) htask
    exact (hissues.relays (R := fun _ => True) fun _ => trivial).alike
      (seen_alike fun _ hc => hc)

end Alike

/-- Whatever the servers trim, and however requests and passes overlap, fail and crash: as
long as no `XADD` leaves an unsettled entry with `event_stream_maxlen` entries behind it,
the run is one of the streams without bounds, with the same results, and its stores differ
in settled entries and old dead letters only. -/
theorem runs_unbounded (py : Python) (settings : Nat → Settings) (bounds : Nat → Bounds)
    (tasks : Nat → Task) {w : World} {cfg : Config Cmd.Resp Exn World Response}
    (hreach : Reach (boundedBackend bounds) (uncrowded bounds)
      (service py settings tasks w) cfg) :
    ∃ cfg', Reach backend .any (service py settings tasks w) cfg' ∧
      Overlaid cfg.world cfg'.world ∧
      ∀ i, (cfg.threads i).result? = (cfg'.threads i).result? := by
  have hstart : Simulated blind Overlaid (service py settings tasks w)
      (service py settings tasks w) :=
    ⟨⟨w.stream, w.dlq, rfl, .refl _, List.suffix_refl _⟩, fun i => .ready (alike_task (tasks i))⟩
  obtain ⟨cfg', hreach', hsim⟩ := (bounded_refines bounds).reach hstart hreach
  exact ⟨cfg', hreach', hsim.worlds, fun i => (hsim.threads i).result?⟩

def viewTwice (i : Nat) : Task :=
  if i = 1 then .pass
  else
    .single ⟨some "10.0.0.1", none, some "curl", "u1"⟩
      { eventId := 1, sessionId := "s1", eventType := .view, properties := [("page", .str "/")] }

set_option maxRecDepth 10000 in
/-- The key expires, and the second entry drives the first one out of a stream of one. -/
theorem runs_unbounded_trimmed :
    ∃ cfg, Reach (boundedBackend fun _ => ⟨1, 1⟩) (uncrowded fun _ => ⟨1, 1⟩)
        (service viewPython (fun _ => {}) viewTwice (World.init 0)) cfg ∧
      cfg.world.stream.entries.map Prod.fst = [1] ∧
      ∃ cfg', Reach backend .any (service viewPython (fun _ => {}) viewTwice (World.init 0)) cfg' ∧
        Overlaid cfg.world cfg'.world ∧
        ∀ i, (cfg.threads i).result? = (cfg'.threads i).result? := by
  obtain ⟨cfg, hreach, htest⟩ := exists_reach_of_run (M := boundedBackend fun _ => ⟨1, 1⟩)
    (π := uncrowded fun _ => ⟨1, 1⟩)
    (.start 0 :: List.replicate 13 (.step 0 (.ok, 5)) ++ .start 1 ::
      List.replicate 12 (.step 1 (.ok, 0)) ++ .env (.tick 86400000) :: .start 2 ::
      List.replicate 13 (.step 2 (.ok, 5)))
    (service viewPython (fun _ => {}) viewTwice (World.init 0))
    (fun cfg => cfg.world.stream.entries.map Prod.fst = [1]) (by decide +kernel)
  exact ⟨cfg, hreach, of_decide_eq_true htest, runs_unbounded _ _ _ _ hreach⟩

end EventAnalytics.Api
