import EventAnalytics.Workers.Sources

/-! Retention cohorts as a partition of the users. A user belongs to the day of the first
event that carries its id, so cohorts depend on which rows there are, not on their order
or number. -/
namespace EventAnalytics.Workers

open Library Db Services

/-- The ids that `compute_retention` reads for a date. -/
def cohort (events : List EventRow) (d : Day) : List UUID :=
  cohortOf events (midnight d) (midnight (d + 1))

/-- A result of a computation over an events table. -/
def Computes {α : Type} (p : ReportApp α) (events : List EventRow) (a : α) : Prop :=
  ∃ w w', w.warehouse.events = events ∧ p.run reportsStep w = some (.ok a, w')

/-- No session has anything in progress. -/
structure Quiescent (w : Reports) : Prop where
  resting : Resting w.warehouse
  retention : w.retentionWritten = []

/-- The computation has a result over the table, whatever there is beside the table. -/
def Returns {α : Type} (p : ReportApp α) (events : List EventRow) : Prop :=
  ∀ w, Quiescent w → w.warehouse.events = events →
    ∃ a w', p.run reportsStep w = some (.ok a, w')

def SameRows (events events' : List EventRow) : Prop :=
  ∀ row, row ∈ events ↔ row ∈ events'

section Cohorts

variable {events events' : List EventRow} {u : UUID} {d : Day}

theorem firstTs_eq_some {t : Nat} :
    firstTs events u = some t ↔ (∃ row ∈ events, row.userId = some u ∧ row.serverTs = t) ∧
      ∀ row ∈ events, row.userId = some u → t ≤ row.serverTs := by
  simp only [firstTs, List.min?_eq_some_iff, List.mem_map, List.mem_filter, decide_eq_true_eq]
  constructor
  · rintro ⟨⟨row, ⟨hrow, huser⟩, hts⟩, hmin⟩
    exact ⟨⟨row, hrow, huser, hts⟩, fun row' hrow' huser' =>
      hmin _ ⟨row', ⟨hrow', huser'⟩, rfl⟩⟩
  · rintro ⟨⟨row, hrow, huser, hts⟩, hmin⟩
    refine ⟨⟨row, ⟨hrow, huser⟩, hts⟩, ?_⟩
    rintro _ ⟨row', ⟨hrow', huser'⟩, rfl⟩
    exact hmin row' hrow' huser'

theorem firstTs_isSome : (firstTs events u).isSome ↔ u ∈ values EventRow.userId events := by
  rw [mem_values, firstTs, List.isSome_min?_iff, ne_eq, List.map_eq_nil_iff,
    List.filter_eq_nil_iff]
  simp

theorem mem_cohort : u ∈ cohort events d ↔ (firstTs events u).map dateOf = some d := by
  have hseen : ∀ {t}, firstTs events u = some t → ∃ row ∈ events, row.userId = some u :=
    fun ht => mem_values.mp (firstTs_isSome.mp (by rw [ht]; rfl))
  simp only [cohort, cohortOf, List.mem_filter, List.mem_dedup, List.mem_filterMap]
  cases ht : firstTs events u with
  | none => simp
  | some t =>
      have hday : midnight d ≤ (t : Int) ∧ (t : Int) < midnight (d + 1) ↔ dateOf t = d := by
        rw [between_midnights]
        exact ⟨fun h => le_antisymm h.2 h.1, fun h => ⟨h.ge, h.le⟩⟩
      have hany : ((firstTs events u).any fun ts =>
          midnight d ≤ ts ∧ ts < midnight (d + 1)) = decide (dateOf t = d) := by
        rw [ht]
        exact decide_eq_decide.mpr hday
      rw [ht] at hany
      rw [hany]
      simp [hseen ht]

theorem nodup_cohort (events : List EventRow) (d : Day) : (cohort events d).Nodup :=
  (List.nodup_dedup _).filter _

theorem length_cohort (events : List EventRow) (d : Day) :
    (cohort events d).length =
      ((values EventRow.userId events).filter fun u =>
        (firstTs events u).map dateOf = some d).card := by
  rw [← List.toFinset_card_of_nodup (nodup_cohort events d)]
  congr 1
  ext u
  rw [List.mem_toFinset, mem_cohort, Finset.mem_filter, ← firstTs_isSome]
  cases firstTs events u <;> simp

theorem retentionCounts_size (events : List EventRow) (d : Day) :
    (retentionCounts events d).1 = (cohort events d).length := by
  unfold retentionCounts cohort
  simp only
  split
  · rename_i hnone
    exact hnone.symm
  · rfl

theorem existsUnique_cohort (hu : u ∈ values EventRow.userId events) :
    ∃! d, u ∈ cohort events d := by
  obtain ⟨t, ht⟩ := Option.isSome_iff_exists.mp (firstTs_isSome.mpr hu)
  refine ⟨dateOf t, mem_cohort.mpr (by rw [ht]; rfl), fun d hd => ?_⟩
  have hday := mem_cohort.mp hd
  rw [ht] at hday
  exact (Option.some.inj hday).symm

theorem sum_cohorts (events : List EventRow) :
    ∑ᶠ d, (cohort events d).length = distinct EventRow.userId events := by
  let day (u : UUID) : Day := ((firstTs events u).map dateOf).getD 0
  have hsize : ∀ d, (cohort events d).length =
      ((values EventRow.userId events).filter fun u => day u = d).card := by
    intro d
    rw [length_cohort]
    congr 1
    apply Finset.filter_congr
    intro u hu
    obtain ⟨t, ht⟩ := Option.isSome_iff_exists.mp (firstTs_isSome.mpr hu)
    simp [day, ht]
  rw [finsum_congr hsize]
  exact finsum_card_fibers _ day

theorem firstTs_congr (h : SameRows events events') (u : UUID) :
    firstTs events u = firstTs events' u := by
  ext t
  simp only [firstTs_eq_some, h _]

theorem mem_cohort_congr (h : SameRows events events') (d : Day) (u : UUID) :
    u ∈ cohort events d ↔ u ∈ cohort events' d := by
  rw [mem_cohort, mem_cohort, firstTs_congr h]

theorem retentionCounts_congr (h : SameRows events events') (d : Day) :
    retentionCounts events d = retentionCounts events' d := by
  have hlength : (cohort events d).length = (cohort events' d).length :=
    ((List.perm_ext_iff_of_nodup (nodup_cohort _ _) (nodup_cohort _ _)).mpr
      (mem_cohort_congr h d)).length_eq
  have hcount : ∀ start stop, distinct (userAmong (cohort events d) start stop) events =
      distinct (userAmong (cohort events' d) start stop) events' := by
    intro start stop
    have hamong : userAmong (cohort events d) start stop =
        userAmong (cohort events' d) start stop := by
      funext row
      simp only [userAmong, mem_cohort_congr h d]
    rw [hamong]
    exact distinct_congr (fun row hrow => ⟨row, (h row).mp hrow, rfl⟩) fun row hrow =>
      ⟨row, (h row).mpr hrow, rfl⟩
  unfold cohort at hlength hcount
  simp only [retentionCounts, hlength, hcount]

end Cohorts

section Snapshots

variable {settings : Settings} {events events' : List EventRow} {w : Reports} {d : Day}

theorem rate_mem {retained cohortSize : Nat} (hle : retained ≤ cohortSize) :
    0 ≤ (rate retained cohortSize).value ∧ (rate retained cohortSize).value ≤ 1 ∧
      (cohortSize = 0 → (rate retained cohortSize).value = 0) := by
  refine ⟨Decimal.value_nonneg _, ?_, fun hzero => ?_⟩
  · unfold rate
    split
    · simp [Decimal.value]
    · exact Decimal.div_le_one hle (by omega)
  · simp [rate, hzero, Decimal.value]

theorem lock_ok (hw : Quiescent w) (k : Int) :
    ∃ w', reportsStep w (.metric (.advisoryLock k)) = some (.ok (), w') ∧
      w'.warehouse.events = w.warehouse.events ∧ w'.warehouse.aborted 0 = false ∧
      w'.warehouse.written = [] ∧ w'.retentionWritten = [] := by
  have heffect : metricsEffect 0 w.warehouse (.advisoryLock k) =
      some (.ok (), { w.warehouse with locks := [(0, k)] }) := by
    simp [metricsEffect, hw.resting.session, hw.resting.locks]
  exact ⟨_, congrArg (Option.map _) heffect, rfl, hw.resting.session, hw.resting.written,
    hw.retention⟩

theorem cohort_ok (haborted : w.warehouse.aborted 0 = false) (d : Day) :
    reportsStep w (.cohort (midnight d) (midnight (d + 1))) =
      some (.ok (cohort w.warehouse.events d), w) := by
  simp [reportsStep, reports, reportsEffect, haborted, cohort]

theorem countAmong_ok (haborted : w.warehouse.aborted 0 = false) (users : List UUID)
    (start stop : Int) :
    reportsStep w (.countAmong users start stop) =
      some (.ok (distinct (userAmong users start stop) w.warehouse.events), w) := by
  simp [reportsStep, reports, reportsEffect, haborted]

theorem retainedOf_ok (haborted : w.warehouse.aborted 0 = false) (d : Day) (users : List UUID) :
    ∃ retained, (retainedOf d users).run reportsStep w = some (.ok retained, w) ∧
      retained.1 ≤ users.length ∧ retained.2 ≤ users.length := by
  unfold retainedOf
  split
  · exact ⟨(0, 0), rfl, Nat.zero_le _, Nat.zero_le _⟩
  · rw [run_query_ok (countAmong_ok haborted users _ _),
      run_query_ok (countAmong_ok haborted users _ _)]
    exact ⟨_, rfl, retainedAmong_le _ _ _ _, retainedAmong_le _ _ _ _⟩

theorem upsertRetention_ok (haborted : w.warehouse.aborted 0 = false)
    (hwritten : w.retentionWritten = []) {row : RetentionRow} (hrow : row.store.isSome) :
    ∃ w', reportsStep w (.upsertRetention d row) = some (.ok (), w') := by
  obtain ⟨columns, hstore⟩ := Option.isSome_iff_exists.mp hrow
  refine ⟨{ w with retentionWritten := [(0, d, columns)] }, ?_⟩
  simp [reportsStep, reports, reportsEffect, haborted, hwritten, hstore]

theorem retentionSet_ok (data : RetentionData) {ttl : Nat} (httl : ttl ≠ 0) :
    ∃ w', reportsStep w (.retentionSet d data ttl) = some (.ok (), w') := by
  refine ⟨{ w with
    retentionCache :=
      Function.update w.retentionCache d (some (data, w.warehouse.clock + ttl * 1000)) }, ?_⟩
  simp only [reportsStep, reports, reportsEffect, if_neg httl]

theorem store_isSome {cohortSize d1 d7 : Nat} (now : Nat) (hsize : cohortSize < 2147483648)
    (hd1 : d1 ≤ cohortSize) (hd7 : d7 ≤ cohortSize) :
    (RetentionRow.store
      ⟨cohortSize, d1, d7, rate d1 cohortSize, rate d7 cohortSize, now⟩).isSome := by
  have hstore : ∀ r ≤ cohortSize, (Numeric.store 8 4 (rate r cohortSize)).isSome :=
    fun r hr => Numeric.store_isSome (rate_mem hr).2.1 (by omega)
  obtain ⟨rate1, hrate1⟩ := Option.isSome_iff_exists.mp (hstore d1 hd1)
  obtain ⟨rate7, hrate7⟩ := Option.isSome_iff_exists.mp (hstore d7 hd7)
  simp [RetentionRow.store, Int4.store, hsize, hd1.trans_lt hsize, hd7.trans_lt hsize, hrate1,
    hrate7]

theorem addDays_of_le {n : Nat} (h : d + n ≤ dateMax) : addDays d n = .ok (d + n) := if_pos h

theorem computeRetention_returns (hw : Quiescent w) (httl : settings.cacheTtlRetention ≠ 0)
    (hd : d + 8 ≤ dateMax) (hsize : (cohort w.warehouse.events d).length < 2 ^ 31) :
    ∃ snap w', (computeRetention settings d).run reportsStep w = some (.ok snap, w') := by
  obtain ⟨w₁, hlock, hevents, haborted, -, hwritten⟩ := lock_ok hw (yyyymmdd d + 2000000)
  obtain ⟨retained, hretained, hd1, hd7⟩ :=
    retainedOf_ok haborted d (cohort w₁.warehouse.events d)
  rw [← hevents] at hsize
  let users := cohort w₁.warehouse.events d
  let snap : RetentionRow :=
    ⟨users.length, retained.1, retained.2, rate retained.1 users.length,
      rate retained.2 users.length, w₁.warehouse.clock⟩
  have hstore : snap.store.isSome := store_isSome _ hsize hd1 hd7
  obtain ⟨w₂, hupsert⟩ := upsertRetention_ok (d := d) haborted hwritten hstore
  obtain ⟨w₃, hset⟩ := retentionSet_ok (w := w₂) (d := d)
    ⟨users.length, retained.1, retained.2, snap.d1Rate.str, snap.d7Rate.str,
      w₁.warehouse.clock⟩ httl
  refine ⟨snap, w₃, ?_⟩
  unfold computeRetention
  rw [run_query_ok hlock, addDays_of_le hd, Prog.ofExcept, Prog.ret_bind,
    run_query_ok (cohort_ok haborted d), Prog.run_bind_ok hretained]
  simp only
  rw [run_query_ok now_ok, run_query_ok hupsert, run_query_ok hset]
  rfl

theorem computes_retention {snap : RetentionRow}
    (h : Computes (computeRetention settings d) events snap) :
    (snap.cohortSize, snap.d1Retained, snap.d7Retained) = retentionCounts events d ∧
      snap.d1Rate = rate snap.d1Retained snap.cohortSize ∧
      snap.d7Rate = rate snap.d7Retained snap.cohortSize := by
  obtain ⟨w, w', rfl, hrun⟩ := h
  obtain ⟨cohortSize, d1, d7, now, rfl, hcounts, -⟩ := computeRetention_writes hrun
  exact ⟨hcounts, rfl, rfl⟩

/-- Cohorts partition the users, and what is computed of a cohort is about the rows as a
set. A snapshot is returned wherever the calendar and the columns have room for it. -/
theorem cohorts_partition {settings : Settings} (httl : settings.cacheTtlRetention ≠ 0)
    (events : List EventRow) :
    (∀ u, (∃ row ∈ events, row.userId = some u) → ∃! d, u ∈ cohort events d) ∧
      ∑ᶠ d, (cohort events d).length = distinct EventRow.userId events ∧
      (∀ d, d + 8 ≤ dateMax → (cohort events d).length < 2 ^ 31 →
        Returns (computeRetention settings d) events) ∧
      ∀ d snap, Computes (computeRetention settings d) events snap →
        snap.cohortSize = (cohort events d).length ∧
        snap.d1Retained ≤ snap.cohortSize ∧ snap.d7Retained ≤ snap.cohortSize ∧
        (0 ≤ snap.d1Rate.value ∧ snap.d1Rate.value ≤ 1) ∧
        (0 ≤ snap.d7Rate.value ∧ snap.d7Rate.value ≤ 1) ∧
        (snap.cohortSize = 0 → snap.d1Rate.value = 0 ∧ snap.d7Rate.value = 0) ∧
        ∀ events' snap', SameRows events events' →
          Computes (computeRetention settings d) events' snap' →
          { snap' with computedAt := snap.computedAt } = snap := by
  refine ⟨fun u hu => existsUnique_cohort (mem_values.mpr hu), sum_cohorts events, ?_, ?_⟩
  · rintro d hd hsize w hw rfl
    exact computeRetention_returns hw httl hd hsize
  intro d snap hsnap
  obtain ⟨hcounts, hrate1, hrate7⟩ := computes_retention hsnap
  have hsize : snap.cohortSize = (cohort events d).length := by
    rw [← retentionCounts_size, ← hcounts]
  have hle := retentionCounts_le events d
  rw [← hcounts] at hle
  obtain ⟨hlow1, hhigh1, hzero1⟩ := rate_mem hle.1
  obtain ⟨hlow7, hhigh7, hzero7⟩ := rate_mem hle.2
  rw [← hrate1] at hlow1 hhigh1 hzero1
  rw [← hrate7] at hlow7 hhigh7 hzero7
  refine ⟨hsize, hle.1, hle.2, ⟨hlow1, hhigh1⟩, ⟨hlow7, hhigh7⟩,
    fun hzero => ⟨hzero1 hzero, hzero7 hzero⟩, ?_⟩
  intro events' snap' hsame hsnap'
  obtain ⟨hcounts', hrate1', hrate7'⟩ := computes_retention hsnap'
  rw [← retentionCounts_congr hsame, ← hcounts] at hcounts'
  obtain ⟨cohortSize, d1, d7, d1Rate, d7Rate, now⟩ := snap
  obtain ⟨cohortSize', d1', d7', d1Rate', d7Rate', now'⟩ := snap'
  simp only [Prod.mk.injEq] at hcounts' hrate1 hrate7 hrate1' hrate7'
  obtain ⟨rfl, rfl, rfl⟩ := hcounts'
  rw [hrate1, hrate7, hrate1', hrate7']

end Snapshots

theorem quiescent_comeback (n : Nat) : Quiescent (comeback n) := ⟨⟨rfl, rfl, rfl⟩, rfl⟩

/-- Three users, one of whom comes back on the next day. -/
theorem cohorts_partition_comeback :
    (∃! d, 2 ∈ cohort (comeback 3).warehouse.events d) ∧
      ∑ᶠ d, (cohort (comeback 3).warehouse.events d).length = 3 ∧
      ∃ snap w', (computeRetention {} 0).run reportsStep (comeback 3) = some (.ok snap, w') ∧
        (snap.cohortSize, snap.d1Retained, snap.d7Retained) = (3, 1, 3) ∧
        snap.d1Rate.value ≤ 1 := by
  obtain ⟨hcohort, hsum, hreturns, hsnap⟩ :=
    @cohorts_partition {} (by decide) (comeback 3).warehouse.events
  refine ⟨hcohort 2 (by decide +kernel), hsum.trans (by decide +kernel), ?_⟩
  obtain ⟨snap, w', hrun⟩ := hreturns 0 (by decide) (by decide +kernel) _
    (quiescent_comeback 3) rfl
  have hcomputes : Computes (computeRetention {} 0) (comeback 3).warehouse.events snap :=
    ⟨_, w', rfl, hrun⟩
  refine ⟨snap, w', hrun, ?_, (hsnap 0 snap hcomputes).2.2.2.1.2⟩
  exact (computes_retention hcomputes).1.trans (by decide +kernel)

end EventAnalytics.Workers
