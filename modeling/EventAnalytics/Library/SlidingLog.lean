import Mathlib.Algebra.Order.Monoid.Unbundled.Basic
import Mathlib.Data.List.Basic

/-! The sliding-window quota as a law about logs of timestamps: what a limiter
that remembers everything would decide. -/
namespace EventAnalytics.Library.SlidingLog

variable {τ : Type} [LinearOrder τ] [Add τ]

/-- Entries of the half-open window of length `width` that ends at `t`. -/
def inWindow (width t : τ) (log : List τ) : Nat :=
  log.countP fun s => s ≤ t ∧ t < s + width

/-- Entries that a window ending at `t` or later can still contain. -/
def fresh (width t : τ) (log : List τ) : List τ :=
  log.filter fun s => t < s + width

def Bounded (limit : Nat) (width : τ) (log : List τ) : Prop :=
  ∀ t, inWindow width t log ≤ limit

def charge (limit : Nat) (width : τ) (log : List τ) (t : τ) : List τ :=
  if inWindow width t log < limit then log ++ [t] else log

@[simp] theorem bounded_nil (limit : Nat) (width : τ) : Bounded limit width [] :=
  fun _ => Nat.zero_le _

theorem inWindow_append (width t : τ) (left right : List τ) :
    inWindow width t (left ++ right) = inWindow width t left + inWindow width t right :=
  List.countP_append

/-- For a log without entries later than `t` the two notions coincide. -/
theorem length_fresh {width t : τ} {log : List τ} (hle : ∀ s ∈ log, s ≤ t) :
    (fresh width t log).length = inWindow width t log := by
  unfold fresh inWindow
  rw [← List.countP_eq_length_filter]
  apply List.countP_congr
  intro s hs
  simp [hle s hs]

theorem fresh_fresh {width t t' : τ} (htt' : t ≤ t') (log : List τ) :
    fresh width t' (fresh width t log) = fresh width t' log := by
  unfold fresh
  rw [List.filter_filter]
  apply List.filter_congr
  intro s _
  simp only [Bool.and_eq_left_iff_imp, decide_eq_true_eq]
  exact fun hlt => lt_of_le_of_lt htt' hlt

/-- An entry may be added whenever fewer than `limit` entries are fresh, in
whatever order the entries come. -/
theorem Bounded.append {limit : Nat} {width t : τ} {log : List τ}
    (hlog : Bounded limit width log) (hfresh : (fresh width t log).length < limit) :
    Bounded limit width (log ++ [t]) := by
  intro x
  rw [inWindow_append]
  by_cases hx : t ≤ x ∧ x < t + width
  · have hone : inWindow width x [t] = 1 := by simp [inWindow, hx]
    have hmono : inWindow width x log ≤ (fresh width t log).length := by
      unfold inWindow fresh
      rw [← List.countP_eq_length_filter]
      apply List.countP_mono_left
      intro s _ hs
      simp only [decide_eq_true_eq] at hs ⊢
      exact lt_of_le_of_lt hx.1 hs.2
    omega
  · have hzero : inWindow width x [t] = 0 := by simpa [inWindow] using hx
    have := hlog x
    omega

theorem Bounded.charge {limit : Nat} {width t : τ} {log : List τ}
    (hlog : Bounded limit width log) (hle : ∀ s ∈ log, s ≤ t) :
    Bounded limit width (charge limit width log t) := by
  unfold SlidingLog.charge
  split
  · rename_i hlt
    exact hlog.append (by rwa [length_fresh hle])
  · exact hlog

theorem Bounded.interval {limit width : Nat} {log : List Nat} (hlog : Bounded limit width log)
    (t : Nat) : (log.countP fun s => t ≤ s ∧ s < t + width) ≤ limit := by
  refine le_trans (List.countP_mono_left fun s _ hs => ?_) (hlog (t + width - 1))
  simp only [decide_eq_true_eq] at hs ⊢
  omega

end EventAnalytics.Library.SlidingLog
