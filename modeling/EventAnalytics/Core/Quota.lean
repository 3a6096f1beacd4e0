import EventAnalytics.Core.RateLimit
import EventAnalytics.Library.Auxiliary

/-! Whether the limit holds when requests overlap. The script is atomic, but the
reading of the clock that it works with is taken before it, so a script with an
older reading may find the set pruned for a newer one, or gone. -/
namespace EventAnalytics.Core

open Library Library.Discipline Library.SlidingLog Redis

/-- The requests of one key that have been allowed, each under its reading. -/
abbrev Allowed := List (ZEntry Member)

def Allowed.readings (allowed : Allowed) : List Nat := allowed.map ZEntry.score

def allowedRecorder : Recorder Cmd.Resp Exn World Allowed where
  step _ _ c r _ allowed :=
    match c, r with
    | .evalSlidingWindow _ now _ _ member, .ok reply =>
      if reply.allowed then allowed ++ [⟨now, member⟩] else allowed
    | _, _ => allowed
  crash _ _ allowed := allowed

/-- The member of a script is new, and the set that it finds still holds every
allowed request of the window that ends at its reading. -/
def intact : Policy Cmd (World × Allowed) Choice EnvAct where
  step _ ch w c :=
    match ch, c with
    | .ok, .evalSlidingWindow key now window _ member =>
      decide (∀ e ∈ w.2, e.member ≠ member ∧
        (now < e.score + window → e ∈ ((w.1.limiter key).live w.1.clock).entries))
    | _, _ => true
  crash := fun _ _ _ => true
  env := fun _ _ => true

def requests (key : String) (limit windowSeconds : Nat) (w : World) :
    Config Cmd.Resp Exn (World × Allowed) Reply :=
  ⟨(w, []), fun _ => .ready (slidingWindowCall key limit windowSeconds)⟩

/-- The allowed requests keep to the limit, each under a member of its own. -/
structure Kept (limit window : Nat) (allowed : Allowed) : Prop where
  bounded : Bounded limit window allowed.readings
  distinct : (allowed.map ZEntry.member).Nodup

def quotaDuty (limit window : Nat) : Cmd → Prop
  | .now => True
  | .uuid4 => True
  | .evalSlidingWindow _ _ window' limit' _ => window' = window ∧ limit' = limit
  | _ => False

section Sound

variable {limit window now : Nat} {allowed : Allowed}

theorem Kept.zcard (h : Kept limit window allowed) {clock : Nat} {z : ZSet Member}
    (hheld : ∀ e ∈ allowed, now < e.score + window → e ∈ (z.live clock).entries) :
    (fresh window now allowed.readings).length ≤ (counted clock now window z).zcard := by
  have hfilter : fresh window now allowed.readings =
      (allowed.filter fun e => now < e.score + window).map ZEntry.score := by
    simp only [SlidingLog.fresh, Allowed.readings, List.filter_map]
    rfl
  rw [hfilter, List.length_map]
  refine (List.subperm_of_subset ((List.Nodup.of_map _ h.distinct).filter _) ?_).length_le
  intro e he
  obtain ⟨he, hlt⟩ := List.mem_filter.mp he
  have hlt : now < e.score + window := by simpa using hlt
  exact mem_counted.mpr ⟨hheld e he hlt, hlt⟩

theorem Kept.allow (h : Kept limit window allowed) {member : Member}
    (hroom : (fresh window now allowed.readings).length < limit)
    (hnew : ∀ e ∈ allowed, e.member ≠ member) :
    Kept limit window (allowed ++ [⟨now, member⟩]) := by
  refine ⟨by simpa [Allowed.readings] using h.bounded.append hroom, ?_⟩
  rw [List.map_append, List.nodup_append]
  refine ⟨h.distinct, by simp, fun m hm m' hm' => ?_⟩
  obtain ⟨e, he, rfl⟩ := List.mem_map.mp hm
  simp only [List.map_cons, List.map_nil, List.mem_singleton] at hm'
  exact hm' ▸ hnew e he

theorem Kept.exec {i : Nat} {w v : World × Allowed} (h : Kept limit window w.2) {ch : Choice}
    {c : Cmd} {r : Except Exn c.Resp} (hadm : intact.step i ch w c = true)
    (hduty : quotaDuty limit window c)
    (hexec : (backend.recorded allowedRecorder).exec i ch w c = some (r, v)) :
    Kept limit window v.2 := by
  obtain ⟨w', allowed'⟩ := v
  obtain ⟨hbackend, hallowed⟩ := Machine.exec_recorded hexec
  clear hexec
  dsimp only at hbackend hallowed ⊢
  subst hallowed
  cases c <;> simp only [quotaDuty] at hduty
  case now => exact h
  case uuid4 => exact h
  case evalSlidingWindow key now window' limit' member =>
    obtain ⟨rfl, rfl⟩ := hduty
    cases ch with
    | ok =>
        cases hbackend
        have hintact := of_decide_eq_true hadm
        have hheld := h.zcard fun e he => (hintact e he).2
        rcases Nat.lt_or_ge (counted w.1.clock now window' (w.1.limiter key)).zcard limit' with
          hroom | hfull
        · simp only [allowedRecorder, slidingWindowLua_of_lt hroom, if_true]
          exact h.allow (hheld.trans_lt hroom) fun e he => (hintact e he).1
        · obtain ⟨reset, heq⟩ := slidingWindowLua_of_ge member hfull
          simp only [allowedRecorder, heq, Bool.false_eq_true, if_false]
          exact h
    | raiseBefore =>
        cases hbackend
        exact h
    | raiseAfter =>
        cases hbackend
        exact h

end Sound

def quota (limit window : Nat) : Discipline Cmd.Resp Exn (World × Allowed) Choice EnvAct where
  machine := backend.recorded allowedRecorder
  policy := intact
  inv := fun w => Kept limit window w.2
  rely := fun _ _ _ => True
  duty := fun _ _ => quotaDuty limit window
  rely_refl := fun _ _ => trivial
  rely_trans := fun _ _ _ _ _ _ => trivial
  step_sound := fun _ _ _ _ _ _ hadm hinv hduty hexec =>
    ⟨hinv.exec hadm hduty hexec, fun _ _ => trivial⟩
  crash_sound := fun _ _ _ _ hinv => ⟨hinv, fun _ _ => trivial⟩
  env_sound := fun e w w' _ hinv henv => by
    obtain ⟨w₁, -, rfl⟩ := Option.map_eq_some_iff.mp henv
    exact ⟨hinv, fun _ => trivial⟩

theorem wp_slidingWindowCall {limit windowSeconds i : Nat} (key : String) (w : World × Allowed) :
    (quota limit (windowSeconds * 1000)).wp i (slidingWindowCall key limit windowSeconds)
      (ends (fun _ _ => True) fun _ _ => True) w := by
  unfold slidingWindowCall
  apply wp_seq (wp_perform_any trivial)
  intro nowMs w₁ _
  apply wp_seq (wp_perform_any trivial)
  intro random w₂ _
  exact wp_perform_any ⟨rfl, rfl⟩

/-- However requests overlap, fail and crash, no interval of one window holds more
than `limit` readings of allowed requests, as long as scripts run under members of
their own against a set that is intact. -/
theorem quota_of_intact (key : String) (limit windowSeconds : Nat) (w : World)
    {cfg : Config Cmd.Resp Exn (World × Allowed) Reply}
    (hreach : Reach (backend.recorded allowedRecorder) intact (requests key limit windowSeconds w)
      cfg) (t : Nat) :
    (cfg.world.2.readings.countP fun s => t ≤ s ∧ s < t + windowSeconds * 1000) ≤ limit := by
  have hstart : Kept limit (windowSeconds * 1000) [] := ⟨bounded_nil limit _, .nil⟩
  have hkeeps := (keeps_ready (D := quota limit (windowSeconds * 1000)) (w := (w, [])) hstart _
    fun _ w' _ => wp_slidingWindowCall key w').reach hreach
  exact hkeeps.inv.bounded.interval t

/-- Two requests at 5000 are allowed. The third reads 5999; before its script runs,
a fourth reads 6000 and its script drops the first two. -/
theorem over_limit_after_overtaking :
    ¬ ∀ cfg, Reach (backend.recorded allowedRecorder) .any
        (requests "rl:sw:ip:10.0.0.1" 2 1 (World.init 5000)) cfg →
      ∀ t, (cfg.world.2.readings.countP fun s => t ≤ s ∧ s < t + 1 * 1000) ≤ 2 := by
  intro h
  obtain ⟨cfg, hreach, htest⟩ := exists_reach_of_run (M := backend.recorded allowedRecorder)
    (π := .any)
    [.start 0, .step 0 .ok, .step 0 .ok, .step 0 .ok, .start 1, .step 1 .ok, .step 1 .ok,
      .step 1 .ok, .env (.tick 999), .start 2, .step 2 .ok, .env (.tick 1), .start 3,
      .step 3 .ok, .step 3 .ok, .step 3 .ok, .step 2 .ok, .step 2 .ok]
    (requests "rl:sw:ip:10.0.0.1" 2 1 (World.init 5000))
    (fun cfg => cfg.world.2.readings = [5000, 5000, 6000, 5999]) (by decide +kernel)
  have hcount := h cfg hreach 5000
  rw [of_decide_eq_true htest] at hcount
  exact absurd hcount (by decide)

/-- The third and the fourth request one after the other: the third is rejected. -/
theorem quota_of_intact_in_turn :
    ∃ cfg, Reach (backend.recorded allowedRecorder) intact
        (requests "rl:sw:ip:10.0.0.1" 2 1 (World.init 5000)) cfg ∧
      cfg.world.2.readings = [5000, 5000, 6000] ∧
      (cfg.world.2.readings.countP fun s => 5000 ≤ s ∧ s < 5000 + 1 * 1000) ≤ 2 := by
  obtain ⟨cfg, hreach, htest⟩ := exists_reach_of_run (M := backend.recorded allowedRecorder)
    (π := intact)
    [.start 0, .step 0 .ok, .step 0 .ok, .step 0 .ok, .start 1, .step 1 .ok, .step 1 .ok,
      .step 1 .ok, .env (.tick 999), .start 2, .step 2 .ok, .step 2 .ok, .step 2 .ok,
      .env (.tick 1), .start 3, .step 3 .ok, .step 3 .ok, .step 3 .ok]
    (requests "rl:sw:ip:10.0.0.1" 2 1 (World.init 5000))
    (fun cfg => cfg.world.2.readings = [5000, 5000, 6000]) (by decide +kernel)
  exact ⟨cfg, hreach, of_decide_eq_true htest, quota_of_intact _ 2 1 _ hreach 5000⟩

end EventAnalytics.Core
