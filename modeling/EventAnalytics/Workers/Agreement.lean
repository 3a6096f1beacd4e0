import EventAnalytics.Workers.Cohorts
import Mathlib.Data.Int.ConditionallyCompleteOrder
import Mathlib.Data.Int.Interval

/-! How daily users, funnel and retention of one events table bound each other. The three
computations draw their day boundaries on their own. -/
namespace EventAnalytics.Workers

open Library Db Services

section Windows

variable {events : List EventRow} {row : EventRow} {u : UUID} {a b c d : Day}

theorem userIn_days {eventType : Option String} :
    userIn (midnight a) (midnight (b + 1)) eventType row = some u ↔
      (a ≤ dateOf row.serverTs ∧ dateOf row.serverTs ≤ b) ∧
        (∀ name, eventType = some name → row.eventType = .str name) ∧ row.userId = some u := by
  cases eventType with
  | none =>
      simp only [userIn, and_true, between_midnights]
      simp
  | some name =>
      cases htype : row.eventType with
      | str s =>
          simp only [userIn, htype, ← and_assoc, between_midnights]
          simp [and_assoc, eq_comm]
      | null | bool | int | float | arr | obj =>
          simp [userIn, htype]

def usersOn (d : Day) : EventRow → Option UUID :=
  userIn (midnight d) (midnight (d + 1)) none

theorem usersOn_eq_some :
    usersOn d row = some u ↔ dateOf row.serverTs = d ∧ row.userId = some u := by
  rw [usersOn, userIn_days]
  constructor
  · rintro ⟨⟨hle, hge⟩, -, huser⟩
    exact ⟨le_antisymm hge hle, huser⟩
  · rintro ⟨hday, huser⟩
    exact ⟨⟨hday.ge, hday.le⟩, by simp, huser⟩

theorem cohort_le_dau : (cohort events c).length ≤ distinct (usersOn c) events := by
  rw [← List.toFinset_card_of_nodup (nodup_cohort events c)]
  apply Finset.card_le_card
  intro u hu
  obtain ⟨t, ht, hday⟩ := Option.map_eq_some_iff.mp (mem_cohort.mp (List.mem_toFinset.mp hu))
  obtain ⟨⟨row, hrow, huser, rfl⟩, -⟩ := firstTs_eq_some.mp ht
  exact mem_values.mpr ⟨row, hrow, usersOn_eq_some.mpr ⟨hday, huser⟩⟩

theorem among_le_dau (users : List UUID) :
    distinct (userAmong users (midnight d) (midnight (d + 1))) events ≤
      distinct (usersOn d) events :=
  distinct_mono fun _ _ _ hamong => (Option.filter_eq_some_iff.mp hamong).1

theorem retention_le_dau (events : List EventRow) (c : Day) :
    (retentionCounts events c).1 ≤ distinct (usersOn c) events ∧
      (retentionCounts events c).2.1 ≤ distinct (usersOn (c + 1)) events ∧
      (retentionCounts events c).2.2 ≤ distinct (usersOn (c + 7)) events := by
  refine ⟨?_, ?_, ?_⟩
  · rw [retentionCounts_size]
    exact cohort_le_dau
  · unfold retentionCounts
    simp only
    split
    · exact Nat.zero_le _
    · have hday : c + 2 = c + 1 + 1 := by ring
      rw [hday]
      exact among_le_dau _
  · unfold retentionCounts
    simp only
    split
    · exact Nat.zero_le _
    · have hday : c + 8 = c + 7 + 1 := by ring
      rw [hday]
      exact among_le_dau _

def usersOfStep (a b : Day) (step : String) : EventRow → Option UUID :=
  userIn (midnight a) (midnight (b + 1)) (some step)

theorem usersOfStep_eq_some {step : String} :
    usersOfStep a b step row = some u ↔ (a ≤ dateOf row.serverTs ∧ dateOf row.serverTs ≤ b) ∧
      row.eventType = .str step ∧ row.userId = some u := by
  rw [usersOfStep, userIn_days]
  simp

theorem exactCounts_funnel (a b : Day) (events : List EventRow) :
    exactCounts (.funnel a b) events =
      funnelOrder.map fun step => distinct (usersOfStep a b step) events := rfl

theorem step_mono {a' b' : Day} (hstart : a ≤ a') (hstop : b' ≤ b) (step : String) :
    distinct (usersOfStep a' b' step) events ≤ distinct (usersOfStep a b step) events := by
  apply distinct_mono
  intro row _ u hu
  obtain ⟨⟨hle, hge⟩, hrest⟩ := usersOfStep_eq_some.mp hu
  exact usersOfStep_eq_some.mpr ⟨⟨hstart.trans hle, hge.trans hstop⟩, hrest⟩

theorem step_le_sum (step : String) :
    distinct (usersOfStep a b step) events ≤
      ∑ d ∈ Finset.Icc a b, distinct (usersOn d) events := by
  apply distinct_le_sum (Finset.Icc a b) usersOn
  intro row _ u hu
  obtain ⟨hdays, -, huser⟩ := usersOfStep_eq_some.mp hu
  exact ⟨dateOf row.serverTs, Finset.mem_Icc.mpr hdays, usersOn_eq_some.mpr ⟨rfl, huser⟩⟩

theorem dau_le_steps (htypes : ∀ row ∈ events, ∃ step ∈ funnelOrder, row.eventType = .str step)
    (hd : d ∈ Finset.Icc a b) :
    distinct (usersOn d) events ≤ (exactCounts (.funnel a b) events).sum := by
  have hnodup : funnelOrder.Nodup := by decide
  rw [exactCounts_funnel, ← List.sum_toFinset _ hnodup]
  apply distinct_le_sum
  intro row hrow u hu
  obtain ⟨hday, huser⟩ := usersOn_eq_some.mp hu
  obtain ⟨step, hstep, htype⟩ := htypes row hrow
  refine ⟨step, List.mem_toFinset.mpr hstep, usersOfStep_eq_some.mpr ⟨?_, htype, huser⟩⟩
  rw [hday]
  exact Finset.mem_Icc.mp hd

end Windows

section Results

variable {settings : Settings} {events : List EventRow} {w : Reports} {a b d : Day}

theorem computes_dau {n : Nat}
    (h : Computes (inReports (computeDau settings d)) events n) :
    n = distinct (usersOn d) events := by
  obtain ⟨w, w', rfl, hrun⟩ := h
  exact (computeDau_writes hrun).1

theorem computes_funnel {snap : FunnelRow}
    (h : Computes (inReports (computeFunnel settings a b)) events snap) :
    countsOf (.funnel a b) snap = exactCounts (.funnel a b) events := by
  obtain ⟨w, w', rfl, hrun⟩ := h
  exact (computeFunnel_writes hrun).1

theorem countUsers_ok (haborted : w.warehouse.aborted 0 = false) (start stop : Int)
    (eventType : Option String) :
    reportsStep w (.metric (.countUsers start stop eventType)) =
      some (.ok (distinct (userIn start stop eventType) w.warehouse.events), w) := by
  change (metricsEffect 0 w.warehouse _).map _ = _
  simp only [metricsEffect, haborted]
  rfl

theorem upsert_ok (haborted : w.warehouse.aborted 0 = false) (hwritten : w.warehouse.written = [])
    {p : Period} {insert update : p.Row} (hinsert : (p.stored insert).isSome)
    (hupdate : (p.stored update).isSome) :
    ∃ w', reportsStep w (.metric (.upsert p insert update)) = some (.ok (), w') := by
  obtain ⟨insert', hinsert⟩ := Option.isSome_iff_exists.mp hinsert
  obtain ⟨update', hupdate⟩ := Option.isSome_iff_exists.mp hupdate
  have heffect : metricsEffect 0 w.warehouse (.upsert p insert' update') =
      some (.ok (), w.warehouse.upsert 0 p insert' update') := by
    simp [metricsEffect, haborted, hwritten]
  have hstored : reportsStep w (.metric (.upsert p insert update)) =
      w.warehouseExec 0 .ok (.upsert p insert' update') := by
    change w.metricExec 0 .ok (.upsert p insert update) = _
    simp only [Reports.metricExec, hinsert, hupdate]
  exact ⟨_, hstored.trans (congrArg (Option.map _) heffect)⟩

theorem countUsers_le (start stop : Int) (eventType : Option String) (events : List EventRow) :
    distinct (userIn start stop eventType) events ≤ distinct EventRow.userId events := by
  apply distinct_mono
  intro row _ u hu
  simp only [userIn, Option.ite_none_right_eq_some] at hu
  exact hu.2

theorem cohort_le (events : List EventRow) (d : Day) :
    (cohort events d).length ≤ distinct EventRow.userId events := by
  rw [length_cohort]
  exact Finset.card_filter_le _ _

theorem stored_dau_isSome {row : DauRow} (hrow : row.value < 2 ^ 31) (d : Day) :
    ((Period.dau d).stored row).isSome := by
  obtain ⟨value, hvalue⟩ := Option.isSome_iff_exists.mp
    (@Numeric.store_natCast_isSome 20 4 row.value (by omega))
  simp [Period.stored, hvalue]

theorem stored_funnel_isSome {row : FunnelRow} (a b : Day)
    (hrow : ∀ n ∈ countsOf (.funnel a b) row, n < 2 ^ 31) :
    ((Period.funnel a b).stored row).isSome := by
  have hstore : ∀ n ∈ countsOf (.funnel a b) row, ∃ x, Int4.store n = some x :=
    fun n hn => ⟨⟨n, hrow n hn⟩, dif_pos (hrow n hn)⟩
  obtain ⟨view, hview⟩ := hstore row.viewCount (by simp [countsOf])
  obtain ⟨search, hsearch⟩ := hstore row.searchCount (by simp [countsOf])
  obtain ⟨cart, hcart⟩ := hstore row.cartCount (by simp [countsOf])
  obtain ⟨order, horder⟩ := hstore row.orderCount (by simp [countsOf])
  simp [Period.stored, hview, hsearch, hcart, horder]

theorem computeDau_returns (hw : Quiescent w) (httl : settings.cacheTtlDau ≠ 0)
    (husers : distinct EventRow.userId w.warehouse.events < 2 ^ 31) (d : Day) :
    ∃ n w', (inReports (computeDau settings d)).run reportsStep w = some (.ok n, w') := by
  obtain ⟨w₁, hlock, hevents, haborted, hwritten, -⟩ := lock_ok hw (yyyymmdd d)
  rw [← hevents] at husers
  have hcount := countUsers_ok haborted (midnight d) (midnight (d + 1)) none
  let row : DauRow := ⟨distinct (userIn (midnight d) (midnight (d + 1)) none) w₁.warehouse.events,
    w₁.warehouse.clock⟩
  have hrow : row.value < 2 ^ 31 := (countUsers_le _ _ _ _).trans_lt husers
  have hstored := stored_dau_isSome hrow d
  obtain ⟨w₂, hupsert⟩ := upsert_ok haborted hwritten hstored hstored
  obtain ⟨w₃, hset⟩ := cacheSet_ok (w := w₂) (p := .dau d) httl ⟨row.value, w₂.warehouse.clock⟩
  refine ⟨row.value, w₃, ?_⟩
  simp only [computeDau, inReports_bind]
  rw [run_ask_ok hlock, run_ask_ok hcount, run_ask_ok now_ok, run_ask_ok now_ok,
    run_ask_ok hupsert, run_ask_ok now_ok, run_ask_ok hset]
  rfl

theorem computeFunnel_returns (hw : Quiescent w) (httl : settings.cacheTtlFunnel ≠ 0)
    (husers : distinct EventRow.userId w.warehouse.events < 2 ^ 31) (a b : Day) :
    ∃ snap w', (inReports (computeFunnel settings a b)).run reportsStep w =
      some (.ok snap, w') := by
  obtain ⟨w₁, hlock, hevents, haborted, hwritten, -⟩ := lock_ok hw (yyyymmdd a + 1000000)
  rw [← hevents] at husers
  have hcount step := countUsers_ok haborted (midnight a) (midnight (b + 1)) (some step)
  let count step :=
    distinct (userIn (midnight a) (midnight (b + 1)) (some step)) w₁.warehouse.events
  have hsmall : ∀ step, count step < 2 ^ 31 := fun step => (countUsers_le _ _ _ _).trans_lt husers
  let snap : FunnelRow :=
    ⟨count "view", count "search", count "add_to_cart", count "order", w₁.warehouse.clock⟩
  have hstored : ((Period.funnel a b).stored snap).isSome := by
    apply stored_funnel_isSome
    rw [show countsOf (.funnel a b) snap = funnelOrder.map count from rfl]
    exact List.forall_mem_map.mpr fun step _ => hsmall step
  obtain ⟨w₂, hupsert⟩ := upsert_ok haborted hwritten hstored hstored
  obtain ⟨w₃, hset⟩ := cacheSet_ok (w := w₂) (p := .funnel a b) httl snap
  refine ⟨snap, w₃, ?_⟩
  simp only [computeFunnel, inReports_bind]
  rw [run_ask_ok hlock, run_ask_ok (hcount _), run_ask_ok (hcount _), run_ask_ok (hcount _),
    run_ask_ok (hcount _), run_ask_ok now_ok, run_ask_ok hupsert, run_ask_ok hset]
  rfl

/-- The three computations return over any table, as far as the calendar and the columns
reach, and whatever they return over one table agrees. -/
theorem metrics_agree {settings : Settings} (hdau : settings.cacheTtlDau ≠ 0)
    (hfunnel : settings.cacheTtlFunnel ≠ 0) (hretention : settings.cacheTtlRetention ≠ 0)
    (events : List EventRow) :
    (distinct EventRow.userId events < 2 ^ 31 →
      (∀ d, d < dateMax → Returns (inReports (computeDau settings d)) events) ∧
      (∀ a b, b < dateMax → Returns (inReports (computeFunnel settings a b)) events) ∧
      ∀ c, c + 8 ≤ dateMax → Returns (computeRetention settings c) events) ∧
    (∀ c snap dau dau1 dau7, Computes (computeRetention settings c) events snap →
      Computes (inReports (computeDau settings c)) events dau →
      Computes (inReports (computeDau settings (c + 1))) events dau1 →
      Computes (inReports (computeDau settings (c + 7))) events dau7 →
      snap.cohortSize ≤ dau ∧ snap.d1Retained ≤ dau1 ∧ snap.d7Retained ≤ dau7) ∧
    ∀ a b snap, a ≤ b → Computes (inReports (computeFunnel settings a b)) events snap →
      (∀ a' b' snap', a ≤ a' → a' ≤ b' → b' ≤ b →
        Computes (inReports (computeFunnel settings a' b')) events snap' →
        List.Forall₂ (· ≤ ·) (countsOf (.funnel a' b') snap') (countsOf (.funnel a b) snap)) ∧
      ∀ dau : Day → Nat, (∀ d ∈ Finset.Icc a b,
          Computes (inReports (computeDau settings d)) events (dau d)) →
        (∀ count ∈ countsOf (.funnel a b) snap, count ≤ ∑ d ∈ Finset.Icc a b, dau d) ∧
        ((∀ row ∈ events, ∃ step ∈ funnelOrder, row.eventType = .str step) →
          ∀ d ∈ Finset.Icc a b, dau d ≤ (countsOf (.funnel a b) snap).sum) := by
  refine ⟨fun husers => ⟨?_, ?_, ?_⟩, ?_, ?_⟩
  · rintro d - w hw rfl
    exact computeDau_returns hw hdau husers d
  · rintro a b - w hw rfl
    exact computeFunnel_returns hw hfunnel husers a b
  · rintro c hc w hw rfl
    exact computeRetention_returns hw hretention hc ((cohort_le _ c).trans_lt husers)
  · intro c snap dau dau1 dau7 hsnap hdau hdau1 hdau7
    obtain ⟨hcounts, -⟩ := computes_retention hsnap
    have hle := retention_le_dau events c
    rw [← hcounts] at hle
    rw [computes_dau hdau, computes_dau hdau1, computes_dau hdau7]
    exact hle
  · intro a b snap _ hsnap
    rw [computes_funnel hsnap]
    constructor
    · intro a' b' snap' hstart _ hstop hsnap'
      rw [computes_funnel hsnap', exactCounts_funnel, exactCounts_funnel]
      exact List.forall₂_map_left_iff.mpr (List.forall₂_map_right_iff.mpr
        (List.forall₂_same.mpr fun step _ => step_mono hstart hstop step))
    · intro dau hdau
      have hexact : ∀ d ∈ Finset.Icc a b, dau d = distinct (usersOn d) events :=
        fun d hd => computes_dau (hdau d hd)
      constructor
      · intro count hcount
        rw [exactCounts_funnel] at hcount
        obtain ⟨step, -, rfl⟩ := List.mem_map.mp hcount
        rw [Finset.sum_congr rfl hexact]
        exact step_le_sum step
      · intro htypes d hd
        rw [hexact d hd]
        exact dau_le_steps htypes hd

end Results

/-- The table of three users, one of whom comes back on the next day. -/
theorem metrics_agree_comeback :
    ∃ snap dau dau1 dau7 funnel,
      Computes (computeRetention {} 0) (comeback 3).warehouse.events snap ∧
      Computes (inReports (computeDau {} 0)) (comeback 3).warehouse.events dau ∧
      Computes (inReports (computeDau {} 1)) (comeback 3).warehouse.events dau1 ∧
      Computes (inReports (computeDau {} 7)) (comeback 3).warehouse.events dau7 ∧
      Computes (inReports (computeFunnel {} 0 7)) (comeback 3).warehouse.events funnel ∧
      (dau, dau1, dau7) = (3, 1, 3) ∧
      snap.cohortSize ≤ dau ∧ snap.d1Retained ≤ dau1 ∧ snap.d7Retained ≤ dau7 := by
  obtain ⟨hreturns, hagree, -⟩ :=
    @metrics_agree {} (by decide) (by decide) (by decide) (comeback 3).warehouse.events
  obtain ⟨hdau, hfunnel, hretention⟩ := hreturns (by decide +kernel)
  have hquiescent := quiescent_comeback 3
  have hcomputes : ∀ d, d < dateMax → ∃ n,
      Computes (inReports (computeDau {} d)) (comeback 3).warehouse.events n := by
    intro d hd
    obtain ⟨n, w', hrun⟩ := hdau d hd _ hquiescent rfl
    exact ⟨n, _, w', rfl, hrun⟩
  obtain ⟨dau, h0⟩ := hcomputes 0 (by decide)
  obtain ⟨dau1, h1⟩ := hcomputes 1 (by decide)
  obtain ⟨dau7, h7⟩ := hcomputes 7 (by decide)
  obtain ⟨funnel, w₁, hrun₁⟩ := hfunnel 0 7 (by decide) _ hquiescent rfl
  obtain ⟨snap, w₂, hrun₂⟩ := hretention 0 (by decide) _ hquiescent rfl
  have hsnap : Computes (computeRetention {} 0) (comeback 3).warehouse.events snap :=
    ⟨_, w₂, rfl, hrun₂⟩
  refine ⟨snap, dau, dau1, dau7, funnel, hsnap, h0, h1, h7, ⟨_, w₁, rfl, hrun₁⟩, ?_,
    hagree 0 snap dau dau1 dau7 hsnap h0 h1 h7⟩
  rw [computes_dau h0, computes_dau h1, computes_dau h7]
  decide +kernel

end EventAnalytics.Workers
