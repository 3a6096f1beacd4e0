import EventAnalytics.Library.SlidingLog
import EventAnalytics.Redis.SortedSet
import Mathlib.Data.String.Basic

/-! The Lua script of the sliding-window limiter and sequences of calls to it.
Lua computes on doubles; timestamps and windows in milliseconds stay far below
2^53, where they are exact. -/
namespace EventAnalytics.Core

open EventAnalytics.Redis EventAnalytics.Library.SlidingLog

variable {μ : Type} [LinearOrder μ]

/-- `[allowed, count, reset_seconds]`. -/
structure Reply where
  allowed : Bool
  count : Nat
  reset : Nat
  deriving DecidableEq, Repr

/-- `math.ceil(ms / 1000)`. -/
def ceilSeconds (ms : Nat) : Nat := (ms + 999) / 1000

/-- The set that the script counts: `ZREMRANGEBYSCORE key 0 (now - window)` on
what has not expired at the server's time `clock`. -/
def counted (clock now window : Nat) (z : ZSet μ) : ZSet μ :=
  let minScore : Int := now - window
  (z.live clock).zremrangebyscore 0 minScore

/-- `_SLIDING_WINDOW_LUA`. The script is one atomic Redis command; keys expire by
the server's time `clock`, while `now` is the caller's reading. -/
def slidingWindowLua (clock : Nat) (z : ZSet μ) (now window limit : Nat) (member : μ) :
    Reply × ZSet μ :=
  let z := counted clock now window z
  let count := z.zcard
  if count ≥ limit then
    let resetMs :=
      match z.zrangeFirst with
      | some oldest => oldest.score + window - now
      | none => window
    (⟨false, count, ceilSeconds resetMs⟩, z)
  else
    (⟨true, count + 1, ceilSeconds window⟩, (z.zadd now member).pexpire (clock + window))

theorem slidingWindowLua_of_lt {clock now window limit : Nat} {z : ZSet μ} {member : μ}
    (hlt : (counted clock now window z).zcard < limit) :
    slidingWindowLua clock z now window limit member =
      (⟨true, (counted clock now window z).zcard + 1, ceilSeconds window⟩,
        ((counted clock now window z).zadd now member).pexpire (clock + window)) := by
  simp [slidingWindowLua, not_le.mpr hlt]

theorem slidingWindowLua_of_ge {clock now window limit : Nat} {z : ZSet μ} (member : μ)
    (hge : limit ≤ (counted clock now window z).zcard) :
    ∃ reset, slidingWindowLua clock z now window limit member =
      (⟨false, (counted clock now window z).zcard, reset⟩, counted clock now window z) := by
  simp [slidingWindowLua, hge]

theorem mem_counted {clock now window : Nat} {z : ZSet μ} {e : ZEntry μ} :
    e ∈ (counted clock now window z).entries ↔
      e ∈ (z.live clock).entries ∧ now < e.score + window := by
  simp only [counted, ZSet.zremrangebyscore, ZSet.keepIf, List.mem_filter]
  apply and_congr_right
  intro _
  simp only [decide_not, Bool.not_eq_eq_eq_not, Bool.not_true, decide_eq_false_iff_not]
  omega

theorem scores_counted (clock now window : Nat) (z : ZSet μ) :
    (counted clock now window z).entries.map ZEntry.score =
      fresh window now ((z.live clock).entries.map ZEntry.score) := by
  simp only [counted, ZSet.zremrangebyscore, ZSet.keepIf, fresh, List.filter_map]
  congr 1
  apply List.filter_congr
  intro e _
  simp only [Function.comp_apply, decide_not, Bool.not_eq_eq_eq_not]
  by_cases hlt : now < e.score + window
  · simp only [hlt, decide_true, Bool.not_true, decide_eq_false_iff_not]
    omega
  · simp only [hlt, decide_false, Bool.not_false, decide_eq_true_eq]
    omega

theorem counted_counted {clock now clock' now' window : Nat} (hclock : clock ≤ clock')
    (hnow : now ≤ now') (z : ZSet μ) :
    counted clock' now' window (counted clock now window z) = counted clock' now' window z := by
  have hlive : (counted clock now window z).live clock' =
      ((z.live clock').zremrangebyscore 0 ((now : Int) - window)) := by
    unfold counted ZSet.live
    by_cases hexp : z.expireAt ≤ clock
    · have hexp' : z.expireAt ≤ clock' := hexp.trans hclock
      simp only [hexp, hexp', ↓reduceIte]
      rfl
    · by_cases hexp' : z.expireAt ≤ clock'
      · simp only [hexp, hexp', ↓reduceIte, ZSet.expireAt_zremrangebyscore]
        rfl
      · simp only [hexp, hexp', ↓reduceIte, ZSet.expireAt_zremrangebyscore]
  have hprune : ∀ y : ZSet μ, (y.zremrangebyscore 0 ((now : Int) - window)).zremrangebyscore 0
      ((now' : Int) - window) = y.zremrangebyscore 0 ((now' : Int) - window) := by
    intro y
    simp only [ZSet.zremrangebyscore, ZSet.keepIf, List.filter_filter, ZSet.mk.injEq, and_true]
    apply List.filter_congr
    intro e _
    simp only [Bool.and_eq_left_iff_imp, decide_not, Bool.not_eq_eq_eq_not, Bool.not_true,
      decide_eq_false_iff_not]
    omega
  change ((counted clock now window z).live clock').zremrangebyscore 0 _ = _
  rw [hlive, hprune]
  rfl

/-- `_sliding_window` by a caller whose clock is the server's. -/
def slidingWindow (z : ZSet μ) (limit windowSeconds now : Nat) (member : μ) : Reply × ZSet μ :=
  slidingWindowLua now z now (windowSeconds * 1000) limit member

structure Call (μ : Type) where
  now : Nat
  member : μ
  deriving DecidableEq, Repr

def slidingWindows (limit windowSeconds : Nat) : ZSet μ → List (Call μ) → List (Call μ × Reply)
  | _, [] => []
  | z, c :: cs =>
    let reply := slidingWindow z limit windowSeconds c.now c.member
    (c, reply.1) :: slidingWindows limit windowSeconds reply.2 cs

theorem slidingWindows_eq_cons {limit windowSeconds : Nat} {z : ZSet μ} {calls : List (Call μ)}
    {x : Call μ × Reply} {rest : List (Call μ × Reply)}
    (h : slidingWindows limit windowSeconds z calls = x :: rest) :
    ∃ c calls', calls = c :: calls' ∧
      x = (c, (slidingWindow z limit windowSeconds c.now c.member).1) ∧
      rest = slidingWindows limit windowSeconds
        (slidingWindow z limit windowSeconds c.now c.member).2 calls' := by
  cases calls with
  | nil => cases h
  | cons c calls =>
      cases h
      exact ⟨c, calls, rfl, rfl, rfl⟩

theorem slidingWindows_map_fst (limit windowSeconds : Nat) (z : ZSet μ) (calls : List (Call μ)) :
    (slidingWindows limit windowSeconds z calls).map Prod.fst = calls := by
  induction calls generalizing z with
  | nil => rfl
  | cons c calls ih => simp [slidingWindows, ih]

def allowedTimes (log : List (Call μ × Reply)) : List Nat :=
  (log.filter fun cr => cr.2.allowed).map fun cr => cr.1.now

omit [LinearOrder μ] in
@[simp] theorem allowedTimes_nil : allowedTimes ([] : List (Call μ × Reply)) = [] := rfl

/-- How the pruned, expiring set stands for the full history `log` of allowed
calls, as far as calls from time `t` on can tell. -/
structure Tracks (window : Nat) (z : ZSet μ) (log : List Nat) (t : Nat) : Prop where
  scores : ∀ u, t ≤ u → (fresh window u (z.entries.map ZEntry.score)).Perm (fresh window u log)
  expiry : z.entries ≠ [] → ∀ s ∈ log, s + window ≤ z.expireAt
  past : ∀ s ∈ log, s ≤ t

theorem Tracks.empty (window t : Nat) : Tracks window (ZSet.empty : ZSet μ) [] t where
  scores := fun _ _ => .refl _
  expiry := fun h => absurd rfl h
  past := by simp

theorem Tracks.later {window : Nat} {z : ZSet μ} {log : List Nat} {t now : Nat}
    (htracks : Tracks window z log t) (hnow : t ≤ now) : Tracks window z log now where
  scores := fun u hu => htracks.scores u (hnow.trans hu)
  expiry := htracks.expiry
  past := fun s hs => (htracks.past s hs).trans hnow

theorem Tracks.counted {window : Nat} {z : ZSet μ} {log : List Nat} {t now : Nat}
    (htracks : Tracks window z log t) (hnow : t ≤ now) :
    ((counted now now window z).entries.map ZEntry.score).Perm (fresh window now log) := by
  rw [scores_counted]
  unfold ZSet.live
  split
  · rename_i hexp
    by_cases hempty : z.entries = []
    · simpa [hempty] using htracks.scores now hnow
    · -- the key expired: no entry of the history is fresh any more
      have hnone : fresh window now log = [] := by
        apply List.filter_eq_nil_iff.mpr
        intro s hs
        have := htracks.expiry hempty s hs
        simp only [decide_eq_true_eq]
        omega
      rw [hnone]
      simp [fresh]
  · exact htracks.scores now hnow

theorem Tracks.zcard {window : Nat} {z : ZSet μ} {log : List Nat} {t now : Nat}
    (htracks : Tracks window z log t) (hnow : t ≤ now) :
    (Core.counted now now window z).zcard = inWindow window now log := by
  have hlen := (htracks.counted hnow).length_eq
  rw [length_fresh fun s hs => (htracks.past s hs).trans hnow] at hlen
  simpa [ZSet.zcard] using hlen

theorem Tracks.rejected {window : Nat} {z : ZSet μ} {log : List Nat} {t now : Nat}
    (htracks : Tracks window z log t) (hnow : t ≤ now) :
    Tracks window (Core.counted now now window z) log now where
  scores u hu := by
    have hperm := (htracks.counted hnow).filter fun s => decide (u < s + window)
    rw [show (fresh window now log).filter (fun s => decide (u < s + window)) =
      fresh window u (fresh window now log) from rfl, fresh_fresh hu] at hperm
    exact hperm
  expiry hne s hs := by
    have hlive : z.live now = z := by
      unfold ZSet.live
      split
      · rename_i hexp
        exact absurd (by simp [Core.counted, ZSet.live, hexp, ZSet.zremrangebyscore,
          ZSet.keepIf]) hne
      · rfl
    have hz : z.entries ≠ [] := by
      rintro hnil
      exact hne (by simp [Core.counted, hlive, hnil, ZSet.zremrangebyscore, ZSet.keepIf])
    simpa [Core.counted, hlive] using htracks.expiry hz s hs
  past s hs := (htracks.past s hs).trans hnow

theorem Tracks.allowed {window : Nat} {z : ZSet μ} {log : List Nat} {t now : Nat} {member : μ}
    (htracks : Tracks window z log t) (hnow : t ≤ now)
    (hnew : ∀ e ∈ z.entries, e.member ≠ member) :
    Tracks window (((Core.counted now now window z).zadd now member).pexpire (now + window))
      (log ++ [now]) now where
  scores u hu := by
    have hnew' : ∀ e ∈ (Core.counted now now window z).entries, e.member ≠ member := by
      intro e he
      apply hnew e
      have hlive := (mem_counted.mp he).1
      unfold ZSet.live at hlive
      split at hlive
      · simp at hlive
      · exact hlive
    have hscores : (((Core.counted now now window z).zadd now member).entries.map
        ZEntry.score).Perm ((Core.counted now now window z).entries.map ZEntry.score ++ [now]) :=
      ((ZSet.zadd_perm hnew').map _).trans (List.perm_append_singleton _ _).symm
    have hfresh := (hscores.filter fun s => decide (u < s + window))
    rw [List.filter_append] at hfresh
    have hold := (htracks.rejected hnow).scores u hu
    unfold fresh at hold ⊢
    rw [List.filter_append]
    exact hfresh.trans (hold.append_right _)
  expiry _ s hs := by
    rcases List.mem_append.mp hs with hs | hs
    · have := htracks.past s hs
      simp only [ZSet.expireAt_pexpire]
      omega
    · simp only [List.mem_singleton] at hs
      simp [hs]
  past s hs := by
    rcases List.mem_append.mp hs with hs | hs
    · exact (htracks.past s hs).trans hnow
    · exact (List.mem_singleton.mp hs).le

/-- What one call does, seen from the history: it is allowed exactly when fewer
than `limit` allowed calls are in its window, and only then does it enter the
history. -/
theorem Tracks.slidingWindow {windowSeconds now t : Nat} {z : ZSet μ} {log : List Nat}
    {member : μ} (htracks : Tracks (windowSeconds * 1000) z log t) (limit : Nat) (hnow : t ≤ now)
    (hnew : ∀ e ∈ z.entries, e.member ≠ member) :
    let n := inWindow (windowSeconds * 1000) now log
    let reply := slidingWindow z limit windowSeconds now member
    reply.1.allowed = decide (n < limit) ∧
      reply.1.count = (if n < limit then n + 1 else n) ∧
      Tracks (windowSeconds * 1000) reply.2 (if n < limit then log ++ [now] else log) now ∧
      ∀ e ∈ reply.2.entries, e ∈ z.entries ∨ e.member = member := by
  have hcard := htracks.zcard hnow
  have hlive : ∀ e ∈ (Core.counted now now (windowSeconds * 1000) z).entries,
      e ∈ z.entries := by
    intro e he
    have hmem := (mem_counted.mp he).1
    unfold ZSet.live at hmem
    split at hmem
    · simp at hmem
    · exact hmem
  dsimp only
  by_cases hlt : inWindow (windowSeconds * 1000) now log < limit
  · simp only [Core.slidingWindow, slidingWindowLua_of_lt (hcard ▸ hlt), hcard, hlt,
      decide_true, ↓reduceIte, true_and]
    refine ⟨htracks.allowed hnow hnew, fun e he => ?_⟩
    rcases List.mem_cons.mp ((ZSet.zadd_perm fun e he => hnew e (hlive e he)).mem_iff.mp he)
      with rfl | he
    · exact .inr rfl
    · exact .inl (hlive e he)
  · obtain ⟨reset, heq⟩ := slidingWindowLua_of_ge member (hcard ▸ not_lt.mp hlt)
    simp only [Core.slidingWindow, heq, hcard, hlt, decide_false, ↓reduceIte, true_and]
    exact ⟨htracks.rejected hnow, fun e he => .inl (hlive e he)⟩

structure Upcoming (z : ZSet μ) (t : Nat) (calls : List (Call μ)) : Prop where
  later : ∀ c ∈ calls, t ≤ c.now
  sorted : calls.Pairwise fun a b => a.now ≤ b.now
  unused : ∀ e ∈ z.entries, ∀ c ∈ calls, e.member ≠ c.member
  distinct : (calls.map Call.member).Nodup

theorem Upcoming.tail {z z' : ZSet μ} {t : Nat} {c : Call μ} {calls : List (Call μ)}
    (hcalls : Upcoming z t (c :: calls))
    (hz' : ∀ e ∈ z'.entries, e ∈ z.entries ∨ e.member = c.member) :
    Upcoming z' c.now calls where
  later := (List.pairwise_cons.mp hcalls.sorted).1
  sorted := (List.pairwise_cons.mp hcalls.sorted).2
  unused e he d hd := by
    rcases hz' e he with he | he
    · exact hcalls.unused e he d (List.mem_cons_of_mem _ hd)
    · have hnodup := List.nodup_cons.mp hcalls.distinct
      rw [he]
      exact fun heq => hnodup.1 (heq ▸ List.mem_map_of_mem hd)
  distinct := (List.nodup_cons.mp hcalls.distinct).2

theorem Tracks.replies {limit windowSeconds t : Nat} {z : ZSet μ} {log : List Nat}
    (htracks : Tracks (windowSeconds * 1000) z log t) {calls : List (Call μ)}
    (hcalls : Upcoming z t calls) {pre post : List (Call μ × Reply)} {c : Call μ} {r : Reply}
    (hsplit : slidingWindows limit windowSeconds z calls = pre ++ (c, r) :: post) :
    let n := inWindow (windowSeconds * 1000) c.now (log ++ allowedTimes pre)
    (r.allowed = true ↔ n < limit) ∧ r.count = if r.allowed then n + 1 else n := by
  induction pre generalizing z log t calls with
  | nil =>
      obtain ⟨d, calls, rfl, heq, -⟩ := slidingWindows_eq_cons hsplit
      cases heq
      obtain ⟨hallowed, hcount, -, -⟩ := htracks.slidingWindow limit
        (hcalls.later c List.mem_cons_self)
        fun e he => hcalls.unused e he c List.mem_cons_self
      simp only [allowedTimes_nil, List.append_nil, hallowed, decide_eq_true_eq, hcount,
        and_self]
  | cons x pre ih =>
      obtain ⟨d, calls, rfl, rfl, hrest⟩ := slidingWindows_eq_cons hsplit
      obtain ⟨hallowed, -, hnext, hmem⟩ := htracks.slidingWindow limit
        (hcalls.later d List.mem_cons_self)
        fun e he => hcalls.unused e he d List.mem_cons_self
      have hih := ih hnext (hcalls.tail hmem) hrest.symm
      have hlog : log ++ allowedTimes ((d, (Core.slidingWindow z limit windowSeconds
          d.now d.member).1) :: pre) =
          (if inWindow (windowSeconds * 1000) d.now log < limit then log ++ [d.now] else log) ++
            allowedTimes pre := by
        by_cases hlt : inWindow (windowSeconds * 1000) d.now log < limit <;>
          simp [allowedTimes, hallowed, hlt]
      rw [hlog]
      exact hih

theorem Tracks.bounded {limit windowSeconds t : Nat} {z : ZSet μ} {log : List Nat}
    (htracks : Tracks (windowSeconds * 1000) z log t)
    (hlog : Bounded limit (windowSeconds * 1000) log) {calls : List (Call μ)}
    (hcalls : Upcoming z t calls) :
    Bounded limit (windowSeconds * 1000)
      (log ++ allowedTimes (slidingWindows limit windowSeconds z calls)) := by
  induction calls generalizing z log t with
  | nil => simpa [slidingWindows] using hlog
  | cons d calls ih =>
      obtain ⟨hallowed, -, hnext, hmem⟩ := htracks.slidingWindow limit
        (hcalls.later d List.mem_cons_self)
        fun e he => hcalls.unused e he d List.mem_cons_self
      have hadmit := hlog.charge fun s hs =>
        (htracks.past s hs).trans (hcalls.later d List.mem_cons_self)
      have hrest := ih hnext hadmit (hcalls.tail hmem)
      by_cases hlt : inWindow (windowSeconds * 1000) d.now log < limit <;>
        simpa [slidingWindows, allowedTimes, hallowed, hlt, charge] using hrest

theorem slidingWindows_counted {limit windowSeconds now : Nat} (z : ZSet μ) {calls : List (Call μ)}
    (hlater : ∀ c ∈ calls, now ≤ c.now) :
    slidingWindows limit windowSeconds (counted now now (windowSeconds * 1000) z) calls =
      slidingWindows limit windowSeconds z calls := by
  cases calls with
  | nil => rfl
  | cons c calls =>
      have hnow := hlater c List.mem_cons_self
      have heq : slidingWindow (counted now now (windowSeconds * 1000) z) limit windowSeconds
          c.now c.member = slidingWindow z limit windowSeconds c.now c.member := by
        unfold slidingWindow slidingWindowLua
        rw [counted_counted hnow hnow]
      simp only [slidingWindows, heq]

theorem slidingWindows_erase {limit windowSeconds : Nat} {z : ZSet μ} {calls : List (Call μ)}
    (hsorted : calls.Pairwise fun a b => a.now ≤ b.now) {pre post : List (Call μ × Reply)}
    {c : Call μ} {r : Reply}
    (hsplit : slidingWindows limit windowSeconds z calls = pre ++ (c, r) :: post)
    (hrejected : r.allowed = false) :
    slidingWindows limit windowSeconds z ((pre ++ post).map Prod.fst) = pre ++ post := by
  induction pre generalizing z calls with
  | nil =>
      obtain ⟨d, calls, rfl, heq, rfl⟩ := slidingWindows_eq_cons hsplit
      cases heq
      have hge : limit ≤ (counted c.now c.now (windowSeconds * 1000) z).zcard := by
        by_contra hlt
        simp [slidingWindow, slidingWindowLua_of_lt (not_le.mp hlt)] at hrejected
      obtain ⟨reset, hreply⟩ := slidingWindowLua_of_ge c.member hge
      rw [slidingWindow, hreply, slidingWindows_counted z (List.pairwise_cons.mp hsorted).1,
        List.nil_append, slidingWindows_map_fst]
  | cons x pre ih =>
      obtain ⟨d, calls, rfl, rfl, hrest⟩ := slidingWindows_eq_cons hsplit
      simp only [List.cons_append, List.map_cons, slidingWindows]
      rw [ih (List.pairwise_cons.mp hsorted).2 hrest.symm]

/-- What an exact sliding-window limiter does with a sequence of calls on a key
that has not been used before. -/
structure Exact (limit windowSeconds : Nat) (calls : List (Call μ)) : Prop where
  /-- A call is allowed when fewer than `limit` earlier allowed calls are in
  `(now - window, now]`, and its count is their number, plus one if allowed. -/
  decided : ∀ pre c r post,
    slidingWindows limit windowSeconds ZSet.empty calls = pre ++ (c, r) :: post →
    let n := (allowedTimes pre).countP fun s => c.now < s + windowSeconds * 1000 ∧ s ≤ c.now
    (r.allowed = true ↔ n < limit) ∧ r.count = if r.allowed then n + 1 else n
  /-- No interval `[t, t + window)` contains more than `limit` allowed calls. -/
  bounded : ∀ t, ((allowedTimes (slidingWindows limit windowSeconds ZSet.empty calls)).countP
    fun s => t ≤ s ∧ s < t + windowSeconds * 1000) ≤ limit
  /-- Without a rejected call the others get the same replies. -/
  unaffected : ∀ pre c r post,
    slidingWindows limit windowSeconds ZSet.empty calls = pre ++ (c, r) :: post →
    r.allowed = false →
    slidingWindows limit windowSeconds ZSet.empty ((pre ++ post).map Prod.fst) = pre ++ post

theorem slidingWindow_exact (limit windowSeconds : Nat) (calls : List (Call μ))
    (hsorted : calls.Pairwise fun a b => a.now ≤ b.now)
    (hdistinct : (calls.map Call.member).Nodup) : Exact limit windowSeconds calls := by
  have hcalls : Upcoming ZSet.empty 0 calls :=
    ⟨fun _ _ => Nat.zero_le _, hsorted, by simp, hdistinct⟩
  have htracks := Tracks.empty (μ := μ) (windowSeconds * 1000) 0
  refine ⟨fun pre c r post hsplit => ?_, fun t => ?_, fun pre c r post hsplit hrejected =>
    slidingWindows_erase hsorted hsplit hrejected⟩
  · have hreply := htracks.replies hcalls hsplit
    simpa only [inWindow, List.nil_append, and_comm] using hreply
  · have hbounded := htracks.bounded (bounded_nil limit _) hcalls
    rw [List.nil_append] at hbounded
    exact hbounded.interval t

theorem slidingWindow_exact_at_edge :
    Exact 1 1 [⟨5000, "5000-a"⟩, ⟨5999, "5999-b"⟩, ⟨6000, "6000-c"⟩] :=
  slidingWindow_exact 1 1 _ (by decide) (by decide)

/-- The entry made at 5000 counts until 5999 and no longer. -/
example : (slidingWindows 1 1 ZSet.empty
      [⟨5000, "5000-a"⟩, ⟨5999, "5999-b"⟩, ⟨6000, "6000-c"⟩]).map Prod.snd =
    [⟨true, 1, 1⟩, ⟨false, 1, 1⟩, ⟨true, 1, 1⟩] := by
  decide

end EventAnalytics.Core
