import EventAnalytics.Core.SlidingWindow

/-! What the reset of a rejected call promises: when the next call will be allowed. -/
namespace EventAnalytics.Core

open EventAnalytics.Redis

variable {μ : Type} [LinearOrder μ]

def afterCalls (limit windowSeconds : Nat) : ZSet μ → List (Call μ) → ZSet μ
  | z, [] => z
  | z, c :: cs =>
    afterCalls limit windowSeconds (slidingWindow z limit windowSeconds c.now c.member).2 cs

theorem ceilSeconds_le (ms : Nat) : ms ≤ 1000 * ceilSeconds ms := by
  unfold ceilSeconds
  omega

theorem ceilSeconds_pred_lt {ms : Nat} (hms : 0 < ms) : 1000 * (ceilSeconds ms - 1) < ms := by
  unfold ceilSeconds
  omega

section Held

variable {limit window windowSeconds t now : Nat} {z : ZSet μ}

/-- The set never exceeds the limit, and the key outlives every entry's window. -/
structure Held (limit window t : Nat) (z : ZSet μ) : Prop where
  size : z.zcard ≤ limit
  expiry : ∀ e ∈ z.entries, e.score + window ≤ z.expireAt
  past : ∀ e ∈ z.entries, e.score ≤ t

theorem Held.empty : Held limit window t (ZSet.empty : ZSet μ) :=
  ⟨Nat.zero_le _, by simp, by simp⟩

theorem live_of_mem {clock : Nat} {e : ZEntry μ} (he : e ∈ (z.live clock).entries) :
    z.live clock = z := by
  unfold ZSet.live at he ⊢
  split at he
  · simp at he
  · rename_i hexp
    rw [if_neg hexp]

theorem counted_sublist : (counted now now window z).entries.Sublist z.entries := by
  unfold counted ZSet.live
  split
  · exact List.nil_sublist _
  · exact List.filter_sublist

theorem Held.counted (h : Held limit window t z) (hnow : t ≤ now) :
    Held limit window now (Core.counted now now window z) where
  size := (counted_sublist.length_le).trans h.size
  expiry e he := by
    have hlive : z.live now = z := live_of_mem (mem_counted.mp he).1
    unfold Core.counted
    rw [hlive]
    exact h.expiry e (counted_sublist.subset he)
  past e he := (h.past e (counted_sublist.subset he)).trans hnow

theorem Held.allowed {member : μ} (h : Held limit window now z) (hroom : z.zcard < limit) :
    Held limit window now ((z.zadd now member).pexpire (now + window)) := by
  have hperm := insertEntry_perm ⟨now, member⟩ (z.entries.filter (·.member ≠ member))
  have hscore : ∀ e ∈ ((z.zadd now member).pexpire (now + window)).entries, e.score ≤ now := by
    intro e he
    rcases List.mem_cons.mp (hperm.mem_iff.mp he) with rfl | he
    · exact le_rfl
    · exact h.past e (List.mem_of_mem_filter he)
  refine ⟨?_, fun e he => ?_, hscore⟩
  · have hlength := hperm.length_eq
    have hfilter := List.length_filter_le (·.member ≠ member) z.entries
    rw [List.length_cons] at hlength
    unfold ZSet.zcard at hroom ⊢
    change (insertEntry _ _).length ≤ limit
    omega
  · rw [ZSet.expireAt_pexpire]
    exact Nat.add_le_add_right (hscore e he) window

theorem Held.slidingWindow (member : μ) (h : Held limit (windowSeconds * 1000) t z)
    (hnow : t ≤ now) :
    Held limit (windowSeconds * 1000) now (slidingWindow z limit windowSeconds now member).2 := by
  have hcounted := h.counted hnow
  rcases Nat.lt_or_ge (Core.counted now now (windowSeconds * 1000) z).zcard limit with hlt | hge
  · rw [Core.slidingWindow, slidingWindowLua_of_lt hlt]
    exact hcounted.allowed hlt
  · obtain ⟨reset, heq⟩ := slidingWindowLua_of_ge member hge
    rw [Core.slidingWindow, heq]
    exact hcounted

theorem Held.afterCalls {calls : List (Call μ)} (h : Held limit (windowSeconds * 1000) t z)
    (hlater : ∀ c ∈ calls, t ≤ c.now) (hsorted : calls.Pairwise fun a b => a.now ≤ b.now)
    (hnow : t ≤ now) (hlast : ∀ c ∈ calls, c.now ≤ now) :
    Held limit (windowSeconds * 1000) now (afterCalls limit windowSeconds z calls) := by
  induction calls generalizing z t with
  | nil => exact ⟨h.size, h.expiry, fun e he => (h.past e he).trans hnow⟩
  | cons c calls ih =>
      obtain ⟨hfirst, hrest⟩ := List.pairwise_cons.mp hsorted
      exact ih (h.slidingWindow c.member (hlater c List.mem_cons_self)) hfirst hrest
        (hlast c List.mem_cons_self) fun d hd => hlast d (List.mem_cons_of_mem _ hd)

/-- A rejected call finds at least `limit` entries and reports when the oldest of them
leaves the window. -/
theorem slidingWindow_rejected {member : μ} (hlimit : 1 ≤ limit)
    (hrejected : (slidingWindow z limit windowSeconds now member).1.allowed = false) :
    ∃ oldest rest, (slidingWindow z limit windowSeconds now member).2.entries = oldest :: rest ∧
      (slidingWindow z limit windowSeconds now member).2 =
        Core.counted now now (windowSeconds * 1000) z ∧
      limit ≤ (slidingWindow z limit windowSeconds now member).2.zcard ∧
      (slidingWindow z limit windowSeconds now member).1.reset =
        ceilSeconds (oldest.score + windowSeconds * 1000 - now) := by
  have hge : limit ≤ (Core.counted now now (windowSeconds * 1000) z).zcard := by
    by_contra hlt
    simp [slidingWindow, slidingWindowLua_of_lt (not_le.mp hlt)] at hrejected
  cases hentries : (Core.counted now now (windowSeconds * 1000) z).entries with
  | nil =>
      rw [ZSet.zcard, hentries, List.length_nil] at hge
      omega
  | cons oldest rest =>
      refine ⟨oldest, rest, ?_⟩
      simp [slidingWindow, slidingWindowLua, hge, hentries, ZSet.zrangeFirst]

theorem slidingWindow_allowed_iff {member : μ} :
    (slidingWindow z limit windowSeconds now member).1.allowed = true ↔
      (Core.counted now now (windowSeconds * 1000) z).zcard < limit := by
  rcases Nat.lt_or_ge (Core.counted now now (windowSeconds * 1000) z).zcard limit with hlt | hge
  · simp [slidingWindow, slidingWindowLua_of_lt hlt, hlt]
  · obtain ⟨reset, heq⟩ := slidingWindowLua_of_ge member hge
    simp [slidingWindow, heq, hge]

theorem counted_lt {oldest : ZEntry μ} {rest : List (ZEntry μ)} (hsize : z.zcard ≤ limit)
    (hentries : z.entries = oldest :: rest) (hgone : oldest.score + window ≤ t) :
    (Core.counted t t window z).zcard < limit := by
  have hsub : (Core.counted t t window z).entries.Sublist rest := by
    have hall : (Core.counted t t window z).entries.Sublist (oldest :: rest) :=
      hentries ▸ counted_sublist
    rcases List.sublist_cons_iff.mp hall with hrest | ⟨l, hl, -⟩
    · exact hrest
    · have hmem : oldest ∈ (Core.counted t t window z).entries := by simp [hl]
      have hfresh := (mem_counted.mp hmem).2
      omega
  have hlength := hsub.length_le
  rw [ZSet.zcard, hentries, List.length_cons] at hsize
  unfold ZSet.zcard
  omega

theorem entries_counted (hlive : t < z.expireAt) (hall : ∀ e ∈ z.entries, t < e.score + window) :
    (Core.counted t t window z).entries = z.entries := by
  have hsame : z.live t = z := by
    unfold ZSet.live
    rw [if_neg (not_le.mpr hlive)]
  unfold Core.counted
  rw [hsame]
  refine List.filter_eq_self.mpr fun e he => ?_
  have := hall e he
  simp only [decide_not, Bool.not_eq_eq_eq_not, Bool.not_true, decide_eq_false_iff_not]
  omega

theorem counted_eq {oldest : ZEntry μ} {rest : List (ZEntry μ)}
    (h : Held limit window now z) (hentries : z.entries = oldest :: rest)
    (hfresh : t < oldest.score + window) : (Core.counted t t window z).zcard = z.zcard := by
  have hlive : t < z.expireAt := hfresh.trans_le (h.expiry oldest (by simp [hentries]))
  have hall : ∀ e ∈ z.entries, t < e.score + window := by
    intro e he
    have hsorted := z.sorted
    rw [hentries] at he hsorted
    rcases List.mem_cons.mp he with rfl | he
    · exact hfresh
    · rcases (List.pairwise_cons.mp hsorted).1 e he with hlt | ⟨heq, -⟩
      · omega
      · omega
  rw [ZSet.zcard, entries_counted hlive hall, ZSet.zcard]

/-- A rejected call tells to the second when the next call will be allowed, if there is
none in between. -/
theorem retry_hint_exact {limit windowSeconds : Nat} (hlimit : 1 ≤ limit)
    {calls : List (Call μ)} {c : Call μ}
    (hsorted : (calls ++ [c]).Pairwise fun a b => a.now ≤ b.now)
    (hrejected : (slidingWindow (afterCalls limit windowSeconds ZSet.empty calls) limit
      windowSeconds c.now c.member).1.allowed = false) :
    let rejected := slidingWindow (afterCalls limit windowSeconds ZSet.empty calls) limit
      windowSeconds c.now c.member
    let allowedAt (d : Call μ) :=
      (slidingWindow rejected.2 limit windowSeconds d.now d.member).1.allowed
    1 ≤ rejected.1.reset ∧
      (∀ d : Call μ, c.now + 1000 * rejected.1.reset ≤ d.now → allowedAt d = true) ∧
      ∀ d : Call μ, d.now = c.now + 1000 * (rejected.1.reset - 1) → allowedAt d = false := by
  obtain ⟨hbefore, -, hlast⟩ := List.pairwise_append.mp hsorted
  have hheld : Held limit (windowSeconds * 1000) c.now
      (afterCalls limit windowSeconds ZSet.empty calls) :=
    Held.empty.afterCalls (t := 0) (fun _ _ => Nat.zero_le _) hbefore (Nat.zero_le _)
      fun d hd => hlast d hd c List.mem_cons_self
  have hafter := hheld.slidingWindow c.member le_rfl
  obtain ⟨oldest, rest, hentries, hcounted, hfull, hreset⟩ :=
    slidingWindow_rejected hlimit hrejected
  have hfresh : c.now < oldest.score + windowSeconds * 1000 := by
    have hmem : oldest ∈ (Core.counted c.now c.now (windowSeconds * 1000)
        (afterCalls limit windowSeconds ZSet.empty calls)).entries := by
      rw [← hcounted, hentries]
      exact List.mem_cons_self
    exact (mem_counted.mp hmem).2
  have hle := ceilSeconds_le (oldest.score + windowSeconds * 1000 - c.now)
  have hlt := ceilSeconds_pred_lt (Nat.sub_pos_of_lt hfresh)
  rw [← hreset] at hle hlt
  refine ⟨by omega, fun d hd => ?_, fun d hd => ?_⟩
  · exact slidingWindow_allowed_iff.mpr (counted_lt hafter.size hentries (by omega))
  · rw [← Bool.not_eq_true, slidingWindow_allowed_iff, counted_eq hafter hentries (by omega)]
    exact not_lt.mpr hfull

end Held

theorem retry_hint_exact_minute :
    let rejected := slidingWindow (afterCalls 1 60 ZSet.empty [⟨5000, "5000-a"⟩]) 1 60 6500 "6500-b"
    let allowedAt (d : Call String) := (slidingWindow rejected.2 1 60 d.now d.member).1.allowed
    1 ≤ rejected.1.reset ∧
      (∀ d : Call String, 6500 + 1000 * rejected.1.reset ≤ d.now → allowedAt d = true) ∧
      ∀ d : Call String, d.now = 6500 + 1000 * (rejected.1.reset - 1) → allowedAt d = false :=
  retry_hint_exact (c := ⟨6500, "6500-b"⟩) (by decide) (by decide) (by decide)

/-- The hint is 59 seconds: at 64500 the call is rejected, at 65500 it is allowed. -/
example :
    let rejected := slidingWindow (afterCalls 1 60 ZSet.empty [⟨5000, "5000-a"⟩]) 1 60 6500 "6500-b"
    rejected.1 = ⟨false, 1, 59⟩ ∧
      (slidingWindow rejected.2 1 60 64500 "64500-c").1.allowed = false ∧
      (slidingWindow rejected.2 1 60 65500 "65500-d").1.allowed = true := by
  decide

end EventAnalytics.Core
