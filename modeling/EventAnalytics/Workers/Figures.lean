import EventAnalytics.Library.Between
import EventAnalytics.Library.Growing
import EventAnalytics.Workers.Changes

/-! What the figures of the metrics count. Each is read off the events at some moment, and
then goes through snapshots and caches, among any requests and jobs. The advisory locks
keep a count from being overwritten with an older one. -/
namespace EventAnalytics.Workers

open Library Library.Discipline Db Services

/-- The counts of a period, each made at a moment between two states of the events. -/
def CountsBetween (p : Period) (before after : List EventRow) (counts : List Nat) : Prop :=
  List.Forall₂ (fun q n => ReadBetween before after (distinct (usersOf q)) n) (queriesOf p) counts

/-- The users of a cohort are counted first, then who of them came back on the first day,
then who on the seventh. -/
def Retained (cohortDate : Day) (before after : List EventRow) (cohortSize d1 d7 : Nat) : Prop :=
  ∃ log log₁ log₇, before <+: log ∧ log <+: log₁ ∧ log₁ <+: log₇ ∧ log₇ <+: after ∧
    let users := cohortOf log (midnight cohortDate) (midnight (cohortDate + 1))
    cohortSize = users.length ∧
      d1 = distinct (userAmong users (midnight (cohortDate + 1)) (midnight (cohortDate + 2))) log₁ ∧
      d7 = distinct (userAmong users (midnight (cohortDate + 7)) (midnight (cohortDate + 8))) log₇

def RowOf (d : Day) (before after : List EventRow) (row : RetentionRow) : Prop :=
  Retained d before after row.cohortSize row.d1Retained row.d7Retained ∧
    row.d1Rate = rate row.d1Retained row.cohortSize ∧
    row.d7Rate = rate row.d7Retained row.cohortSize

/-- The columns are those of a row that has been read off the events. -/
def SnapshotOf (d : Day) (events : List EventRow) (columns : RetentionColumns) : Prop :=
  ∃ row, RowOf d [] events row ∧ row.store = some columns

def DataOf (d : Day) (events : List EventRow) (data : RetentionData) : Prop :=
  Retained d [] events data.cohortSize data.d1Retained data.d7Retained ∧
    data.d1Rate = (rate data.d1Retained data.cohortSize).str ∧
    data.d7Rate = (rate data.d7Retained data.cohortSize).str

/-- The rate, or what its column stores of it. -/
def RateOf (retained cohortSize : Nat) (x : Decimal) : Prop :=
  x = rate retained cohortSize ∨
    ∃ y : Numeric 8 4, Numeric.store 8 4 (rate retained cohortSize) = some y ∧ x = y.decimal

/-- The events of the minute before a time that has come. -/
def OfMinute (since clock : Nat) (before after : List EventRow) (n : Nat) : Prop :=
  ∃ t, since ≤ t ∧ t ≤ clock ∧
    ReadBetween before after (fun log => log.countP fun row => (t : Int) - 60000 ≤ row.serverTs) n

def DAUResponse.Holds (since now : Reports) (r : DAUResponse) : Prop :=
  let before := if r.source = .computed then since.warehouse.events else []
  CountsBetween (.dau r.metricDate) before now.warehouse.events [r.dau]

/-- The conversions are those between the counts. -/
def FunnelResponse.Holds (since now : Reports) (r : FunnelResponse) : Prop :=
  let before := if r.source = .computed then since.warehouse.events else []
  let counts := r.steps.map FunnelStep.count
  CountsBetween (.funnel r.windowStart r.windowEnd) before now.warehouse.events counts ∧
    r.steps = funnelSteps none (funnelOrder.zip counts)

def RetentionResponse.Holds (since now : Reports) (r : RetentionResponse) : Prop :=
  let before := if r.source = .computed then since.warehouse.events else []
  Retained r.cohortDate before now.warehouse.events r.cohortSize r.d1Retained r.d7Retained ∧
    RateOf r.d1Retained r.cohortSize r.d1Rate ∧ RateOf r.d7Retained r.cohortSize r.d7Rate

def RealtimeEPMResponse.Holds (since now : Reports) (r : RealtimeEPMResponse) : Prop :=
  if r.source = .database then
    OfMinute since.warehouse.clock now.warehouse.clock since.warehouse.events
      now.warehouse.events r.eventsPerMinute
  else OfMinute 0 now.warehouse.clock [] now.warehouse.events r.eventsPerMinute

/-- The summary is of the day on which it was asked for. Of its first and third figure it
does not say whether they were computed for it. -/
structure MetricsSummary.Holds (since now : Reports) (r : MetricsSummary) : Prop where
  dauToday : ∃ t, since.warehouse.clock ≤ t ∧ t ≤ now.warehouse.clock ∧
    CountsBetween (.dau (dateOf t)) [] now.warehouse.events [r.dauToday]
  eventsTotal : ReadBetween since.warehouse.events now.warehouse.events List.length r.eventsTotal
  eventsLastMinute :
    OfMinute 0 now.warehouse.clock [] now.warehouse.events r.eventsLastMinute
  funnel : FunnelResponse.Holds since now r.funnel
  retention : ∀ retention, r.retention = some retention →
    RetentionResponse.Holds since now retention

/-- What a request or a job says of the metrics. -/
inductive Figure
  | dau (r : DAUResponse)
  | funnel (r : FunnelResponse)
  | retention (r : RetentionResponse)
  | epm (r : RealtimeEPMResponse)
  | summary (r : MetricsSummary)
  | dauJob (today : Day) (value : Nat)
  | funnelJob (start today : Day) (snap : FunnelRow)
  | retentionJob (cohortDate : Day) (snap : RetentionRow)

/-- Between `since` and `now` the figure has been read off the events. What has been
computed for it counts all that was stored at `since`. -/
def Figure.Holds (since now : Reports) : Figure → Prop
  | .dau r => DAUResponse.Holds since now r
  | .funnel r => FunnelResponse.Holds since now r
  | .retention r => RetentionResponse.Holds since now r
  | .epm r => RealtimeEPMResponse.Holds since now r
  | .summary r => MetricsSummary.Holds since now r
  | .dauJob today value =>
    CountsBetween (.dau today) since.warehouse.events now.warehouse.events [value]
  | .funnelJob start today snap =>
    CountsBetween (.funnel start today) since.warehouse.events now.warehouse.events
      (countsOf (.funnel start today) snap)
  | .retentionJob cohortDate snap =>
    RowOf cohortDate since.warehouse.events now.warehouse.events snap

inductive Reading
  | getDau (metricDate : Option Day)
  | getFunnel (windowStart windowEnd : Option Day)
  | getRetention (cohortDate : Option Day)
  | getRealtimeEpm
  | getSummary
  | computeDauJob
  | computeFunnelJob
  | computeRetentionJob

/-- The handlers of `app/api/v1/metrics.py`, and the jobs. -/
def Reading.run (settings : Settings) : Reading → ReportApp Figure
  | .getDau d => .dau <$> reportsRequest (inReports (Services.getDau settings d))
  | .getFunnel a b => .funnel <$> reportsRequest (inReports (Services.getFunnel settings a b))
  | .getRetention d => .retention <$> reportsRequest (Services.getRetention settings d)
  | .getRealtimeEpm => .epm <$> reportsRequest (Services.getRealtimeEpm settings)
  | .getSummary => .summary <$> reportsRequest (Services.getSummary settings)
  | .computeDauJob => do
    let (today, value) ← inReports (Workers.computeDauJob settings)
    pure (.dauJob today value)
  | .computeFunnelJob => do
    let (start, today, snap) ← inReports (Workers.computeFunnelJob settings)
    pure (.funnelJob start today snap)
  | .computeRetentionJob => do
    let (cohortDate, snap) ← Workers.computeRetentionJob settings
    pure (.retentionJob cohortDate snap)

section Stores

variable {w w' : Reports} {i : Nat}

/-- All that is stored or cached has been read off the events. -/
structure Genuine (w : Reports) : Prop where
  rows : ∀ p row, w.warehouse.rows p = some row →
    CountsBetween p [] w.warehouse.events (countsOf p row)
  cache : ∀ p c, w.warehouse.cache p = some c →
    CountsBetween p [] w.warehouse.events (countsOf p c.row)
  written : ∀ i p row, (i, ⟨p, row⟩) ∈ w.warehouse.written →
    CountsBetween p [] w.warehouse.events (countsOf p row)
  retention : ∀ d columns, w.retention d = some columns →
    SnapshotOf d w.warehouse.events columns
  retentionCache : ∀ d c, w.retentionCache d = some c → DataOf d w.warehouse.events c.1
  retentionWritten : ∀ i d columns, (i, d, columns) ∈ w.retentionWritten →
    SnapshotOf d w.warehouse.events columns
  epm : ∀ c, w.epmCache = some c → OfMinute 0 w.warehouse.clock [] w.warehouse.events c.1

/-- No count of the snapshot is below the committed one. -/
def Exceeds (w : Reports) (p : Period) (row : p.Row) : Prop :=
  ∀ old, w.warehouse.rows p = some old → List.Forall₂ (· ≤ ·) (countsOf p old) (countsOf p row)

/-- Sessions write under their locks and over nothing newer. -/
structure Ordered (w : Reports) : Prop where
  exclusive : ∀ i j k, k ∈ keysOf i w → k ∈ keysOf j w → i = j
  written : ∀ i p row, (i, ⟨p, row⟩) ∈ w.warehouse.written → keyOf p ∈ keysOf i w
  newer : ∀ i p row, (i, ⟨p, row⟩) ∈ w.warehouse.written → Exceeds w p row

/-- What a session relies on: while it holds the lock of a snapshot, nobody replaces it. -/
structure Guarded (i : Nat) (w w' : Reports) : Prop extends Forward w w' where
  keys : keysOf i w' = keysOf i w
  rows : ∀ p, keyOf p ∈ keysOf i w → w'.warehouse.rows p = w.warehouse.rows p

/-- What is put into a cache or a snapshot has been read off the events, and what goes
into a snapshot is not below what is there. -/
def figureDuty (i : Nat) (w : Reports) : ReportCmd → Prop
  | .metric (.cacheSet p row _) => CountsBetween p [] w.warehouse.events (countsOf p row)
  | .metric (.upsert p insert update) => keyOf p ∈ keysOf i w ∧
    ∀ row, row = insert ∨ row = update →
      CountsBetween p [] w.warehouse.events (countsOf p row) ∧ Exceeds w p row
  | .retentionSet d data _ => DataOf d w.warehouse.events data
  | .upsertRetention d row => RowOf d [] w.warehouse.events row
  | .epmSet epm _ => OfMinute 0 w.warehouse.clock [] w.warehouse.events epm
  | _ => True

theorem Guarded.refl (i : Nat) (w : Reports) : Guarded i w w :=
  ⟨.refl w, rfl, fun _ _ => rfl⟩

theorem Guarded.trans {a b c : Reports} (hab : Guarded i a b) (hbc : Guarded i b c) :
    Guarded i a c :=
  ⟨hab.toForward.trans hbc.toForward, hbc.keys.trans hab.keys, fun p hp =>
    (hbc.rows p (hab.keys ▸ hp)).trans (hab.rows p hp)⟩

section Counts

variable {before after after' : List EventRow} {p : Period} {counts : List Nat} {d : Day}
  {cohortSize d1 d7 since clock clock' n : Nat}

theorem CountsBetween.grown (h : CountsBetween p before after counts) (hgrown : after <+: after') :
    CountsBetween p before after' counts :=
  h.imp fun _ _ hread => hread.grown hgrown

theorem CountsBetween.ever (h : CountsBetween p before after counts) :
    CountsBetween p [] after counts :=
  h.imp fun _ _ hread => hread.ever

theorem Retained.grown (h : Retained d before after cohortSize d1 d7) (hgrown : after <+: after') :
    Retained d before after' cohortSize d1 d7 := by
  obtain ⟨log, log₁, log₇, hbefore, h₁, h₇, hafter, hcounts⟩ := h
  exact ⟨log, log₁, log₇, hbefore, h₁, h₇, hafter.trans hgrown, hcounts⟩

theorem Retained.ever (h : Retained d before after cohortSize d1 d7) :
    Retained d [] after cohortSize d1 d7 := by
  obtain ⟨log, log₁, log₇, -, h₁, h₇, hafter, hcounts⟩ := h
  exact ⟨log, log₁, log₇, List.nil_prefix, h₁, h₇, hafter, hcounts⟩

theorem OfMinute.grown (h : OfMinute since clock before after n) (hclock : clock ≤ clock')
    (hgrown : after <+: after') : OfMinute since clock' before after' n := by
  obtain ⟨t, hsince, ht, hread⟩ := h
  exact ⟨t, hsince, ht.trans hclock, hread.grown hgrown⟩

theorem OfMinute.ever (h : OfMinute since clock before after n) : OfMinute 0 clock [] after n := by
  obtain ⟨t, -, ht, hread⟩ := h
  exact ⟨t, Nat.zero_le t, ht, hread.ever⟩

theorem SnapshotOf.grown {columns : RetentionColumns} (h : SnapshotOf d after columns)
    (hgrown : after <+: after') : SnapshotOf d after' columns := by
  obtain ⟨row, hrow, hstore⟩ := h
  exact ⟨row, ⟨hrow.1.grown hgrown, hrow.2⟩, hstore⟩

theorem DataOf.grown {data : RetentionData} (h : DataOf d after data) (hgrown : after <+: after') :
    DataOf d after' data :=
  ⟨h.1.grown hgrown, h.2⟩

end Counts

theorem Genuine.forward (h : Genuine w) (hforward : Forward w w')
    (hrows : w'.warehouse.rows = w.warehouse.rows)
    (hcache : w'.warehouse.cache = w.warehouse.cache)
    (hwritten : w'.warehouse.written ⊆ w.warehouse.written)
    (hretention : w'.retention = w.retention)
    (hretentionCache : w'.retentionCache = w.retentionCache)
    (hretentionWritten : w'.retentionWritten ⊆ w.retentionWritten)
    (hepm : w'.epmCache = w.epmCache) : Genuine w' where
  rows p row hrow := (h.rows p row (hrows ▸ hrow)).grown hforward.events
  cache p c hc := (h.cache p c (hcache ▸ hc)).grown hforward.events
  written i p row hrow := (h.written i p row (hwritten hrow)).grown hforward.events
  retention d columns hd := (h.retention d columns (hretention ▸ hd)).grown hforward.events
  retentionCache d c hc := (h.retentionCache d c (hretentionCache ▸ hc)).grown hforward.events
  retentionWritten i d columns hd :=
    (h.retentionWritten i d columns (hretentionWritten hd)).grown hforward.events
  epm c hc := (h.epm c (hepm ▸ hc)).grown hforward.clock hforward.events

theorem Genuine.step (h : Genuine w) {c : ReportCmd} (hduty : figureDuty i w c)
    (hchange : Change i w c w') (hforward : Forward w w') : Genuine w' := by
  cases hchange with
  | nothing hsame =>
      exact h.forward hforward hsame.rows hsame.cache hsame.written hsame.retention
        hsame.retentionCache hsame.retentionWritten hsame.epm
  | @cached p row ttl =>
      refine { h with cache := fun q c hc => ?_ }
      by_cases hq : q = p
      · subst hq
        simp only [Function.update_self, Option.some.injEq] at hc
        exact hc ▸ hduty
      · simp only [Function.update_of_ne hq] at hc
        exact h.cache q c hc
  | @wrote p insert update =>
      refine { h with written := fun j q row hrow => ?_ }
      rcases List.mem_cons.mp hrow with heq | hrow
      · cases heq
        refine (hduty.2 _ ?_).1
        split
        · exact .inr rfl
        · exact .inl rfl
      · exact h.written j q row hrow
  | committed =>
      refine ⟨fun p row hrow => ?_, h.cache, fun j p row hrow => ?_, fun d columns hd => ?_,
        h.retentionCache, fun j d columns hd => ?_, h.epm⟩
      · simp only [Warehouse.commitTx] at hrow
        split at hrow
        · rename_i own hown
          cases hrow
          exact h.written i p row (Warehouse.mem_of_own? hown)
        · exact h.rows p row hrow
      · exact h.written j p row (List.mem_of_mem_filter hrow)
      · rcases Option.or_eq_some_iff.mp hd with hown | ⟨-, hd⟩
        · exact h.retentionWritten i d columns (mem_of_ownRetention? hown)
        · exact h.retention d columns hd
      · exact h.retentionWritten j d columns (List.mem_of_mem_filter hd)
  | @cachedRetention d data ttl =>
      refine { h with retentionCache := fun d' c hc => ?_ }
      by_cases hd : d' = d
      · subst hd
        simp only [Function.update_self, Option.some.injEq] at hc
        exact hc ▸ hduty
      · simp only [Function.update_of_ne hd] at hc
        exact h.retentionCache d' c hc
  | wroteRetention hstore =>
      refine { h with retentionWritten := fun j d columns hd => ?_ }
      rcases List.mem_cons.mp hd with heq | hd
      · cases heq
        exact ⟨_, hduty, hstore⟩
      · exact h.retentionWritten j d columns hd
  | cachedEpm =>
      refine { h with epm := fun c hc => ?_ }
      cases hc
      exact hduty

theorem Ordered.exclusive_step (h : Ordered w) {c : ReportCmd} (hfoot : Footprint i w c w')
    (j l : Nat) (k : Int) (hj : k ∈ keysOf j w') (hl : k ∈ keysOf l w') : j = l := by
  by_cases hji : j = i
  · by_cases hli : l = i
    · exact hji.trans hli.symm
    · subst hji
      rw [hfoot.keys_ne hli] at hl
      rcases hfoot.key_new hj with hj | hfree
      · exact h.exclusive j l k hj hl
      · exact (hfree l hl).symm
  · rw [hfoot.keys_ne hji] at hj
    by_cases hli : l = i
    · subst hli
      rcases hfoot.key_new hl with hl | hfree
      · exact h.exclusive j l k hj hl
      · exact hfree j hj
    · rw [hfoot.keys_ne hli] at hl
      exact h.exclusive j l k hj hl

theorem Ordered.written_step (h : Ordered w) {c : ReportCmd} (hduty : figureDuty i w c)
    (hfoot : Footprint i w c w') (j : Nat) (p : Period) (row : p.Row)
    (hrow : (j, ⟨p, row⟩) ∈ w'.warehouse.written) : keyOf p ∈ keysOf j w' := by
  cases hfoot with
  | within hwithin =>
      rw [keysOf_congr hwithin.locks]
      exact h.written j p row (hwithin.written hrow)
  | locked hfree hlocks hwritten =>
      rw [hwritten] at hrow
      simp only [keysOf, hlocks, List.filter_append, List.map_append]
      exact List.mem_append_left _ (h.written j p row hrow)
  | wrote hlocks hwritten =>
      rw [keysOf_congr hlocks]
      rw [hwritten] at hrow
      rcases List.mem_cons.mp hrow with heq | hrow
      · cases heq
        exact hduty.1
      · exact h.written j p row hrow
  | wroteRetention hwarehouse =>
      rw [keysOf_congr (congrArg Warehouse.locks hwarehouse)]
      exact h.written j p row (hwarehouse ▸ hrow)
  | closed _ hlocks hwritten =>
      simp only [hwritten, Warehouse.dropWrites, List.mem_filter, decide_eq_true_eq] at hrow
      rw [keysOf_dropped_ne hlocks hrow.2]
      exact h.written j p row hrow.1

theorem Ordered.rows_kept (h : Ordered w) {c : ReportCmd} (hchange : Change i w c w') {j : Nat}
    (hj : j ≠ i) {p : Period} (hp : keyOf p ∈ keysOf j w) :
    w'.warehouse.rows p = w.warehouse.rows p := by
  cases hchange with
  | nothing hsame => rw [hsame.rows]
  | committed =>
      cases hown : w.warehouse.own? i p with
      | none => simp only [Warehouse.commitTx, hown]
      | some row =>
          have hi : keyOf p ∈ keysOf i w := h.written i p row (Warehouse.mem_of_own? hown)
          exact absurd (h.exclusive j i _ hp hi) hj
  | _ => rfl

theorem Ordered.newer_step (h : Ordered w) {c : ReportCmd} (hduty : figureDuty i w c)
    (hchange : Change i w c w') (j : Nat) (p : Period) (row : p.Row)
    (hrow : (j, ⟨p, row⟩) ∈ w'.warehouse.written) : Exceeds w' p row := by
  intro old hold
  cases hchange with
  | nothing hsame => exact h.newer j p row (hsame.written hrow) old (hsame.rows ▸ hold)
  | @wrote q insert update =>
      rcases List.mem_cons.mp hrow with heq | hrow
      · cases heq
        refine (hduty.2 _ ?_).2 old hold
        split
        · exact .inr rfl
        · exact .inl rfl
      · exact h.newer j p row hrow old hold
  | committed =>
      obtain ⟨hrow, hj⟩ := List.mem_filter.mp hrow
      have hp : keyOf p ∈ keysOf j w := h.written j p row hrow
      have hkept := h.rows_kept (.committed (i := i)) (of_decide_eq_true hj) hp
      exact h.newer j p row hrow old (hkept ▸ hold)
  | _ => exact h.newer j p row hrow old hold

theorem Ordered.rise (h : Ordered w) {c : ReportCmd} (hchange : Change i w c w') {p : Period}
    {old : p.Row} (hold : w.warehouse.rows p = some old) :
    ∃ row, w'.warehouse.rows p = some row ∧
      List.Forall₂ (· ≤ ·) (countsOf p old) (countsOf p row) := by
  have hsame : List.Forall₂ (· ≤ ·) (countsOf p old) (countsOf p old) :=
    List.forall₂_same.mpr fun n _ => le_refl n
  cases hchange with
  | nothing hsame' => exact ⟨old, hsame'.rows ▸ hold, hsame⟩
  | committed =>
      cases hown : w.warehouse.own? i p with
      | none => exact ⟨old, by simp only [Warehouse.commitTx, hown, hold], hsame⟩
      | some row =>
          exact ⟨row, by simp only [Warehouse.commitTx, hown],
            h.newer i p row (Warehouse.mem_of_own? hown) old hold⟩
  | _ => exact ⟨old, hold, hsame⟩

theorem figures_step (h : Genuine w ∧ Ordered w) {c : ReportCmd} (hduty : figureDuty i w c)
    (hfoot : Footprint i w c w') (hchange : Change i w c w') :
    (Genuine w' ∧ Ordered w') ∧ ∀ j, j ≠ i → Guarded j w w' := by
  have hforward := hchange.forward hfoot
  refine ⟨⟨h.1.step hduty hchange hforward, ?_⟩, fun j hj => ?_⟩
  · exact ⟨h.2.exclusive_step hfoot, h.2.written_step hduty hfoot, h.2.newer_step hduty hchange⟩
  · exact ⟨hforward, hfoot.keys_ne hj, fun p hp => h.2.rows_kept hchange hj hp⟩

theorem figures_env (h : Genuine w ∧ Ordered w) {e : ReportEnv}
    (henv : reports.env e w = some w') :
    (Genuine w' ∧ Ordered w') ∧ ∀ j, Guarded j w w' := by
  have hforward := forward_env henv
  have hlater := later_env henv
  have hkeys := keysOf_congr (locks_env henv)
  have hepm : w'.epmCache = w.epmCache := by
    cases e with
    | visit d n =>
        cases henv
        rfl
    | metric e =>
        obtain ⟨v, -, rfl⟩ := Option.map_eq_some_iff.mp henv
        rfl
  refine ⟨⟨h.1.forward hforward hlater.rows hlater.cache (hlater.written ▸ fun _ h => h)
    hlater.retention hlater.retentionCache (hlater.retentionWritten ▸ fun _ h => h) hepm, ?_⟩,
    fun j => ⟨hforward, hkeys j, fun p _ => by rw [hlater.rows]⟩⟩
  refine ⟨fun j l k => ?_, fun j p row hrow => ?_, fun j p row hrow old hold => ?_⟩
  · rw [hkeys, hkeys]
    exact h.2.exclusive j l k
  · rw [hkeys]
    exact h.2.written j p row (hlater.written ▸ hrow)
  · exact h.2.newer j p row (hlater.written ▸ hrow) old (hlater.rows ▸ hold)

end Stores

def figures : Discipline ReportCmd.Resp Exn Reports Choice ReportEnv where
  machine := reports
  policy := .any
  inv w := Genuine w ∧ Ordered w
  rely := Guarded
  duty := figureDuty
  rely_refl := .refl
  rely_trans := fun _ _ _ _ => .trans
  step_sound := fun _ _ _ _ _ _ _ hinv hduty hexec =>
    figures_step hinv hduty (footprint_exec hexec) (change_exec hexec)
  crash_sound := fun i w _ _ hinv =>
    figures_step (c := .metric .rollback) hinv trivial (.closed rfl rfl rfl rfl rfl)
      (.nothing (unchanged_rollbackTx w i))
  env_sound := fun _ _ _ _ hinv henv => figures_env hinv henv

section Rules

variable {settings : Settings} {since w w' : Reports} {i : Nat} {α β : Type}

/-- The stores, at `since` or later. -/
structure Onward (since w : Reports) : Prop where
  forward : Forward since w
  genuine : Genuine w
  ordered : Ordered w

theorem Onward.before (h : Onward since w) : since.warehouse.events <+: w.warehouse.events :=
  h.forward.events

theorem wp_onward {p : ReportApp α} {R : α → Reports → Prop} {E : Exn → Reports → Prop}
    (hp : figures.wp i p (ends R E) w) (hw : Onward since w) :
    figures.wp i p (ends (fun a w' => R a w' ∧ Onward since w') E) w := by
  induction p generalizing w with
  | ret a => exact ⟨hp, hw⟩
  | raise e => exact hp
  | call c k ih =>
      obtain ⟨hduty, -, hstep⟩ := hp
      refine ⟨hduty, fun _ _ _ => trivial, fun ch r w' hadm hexec w'' hlater => ?_⟩
      have hforward := (change_exec hexec).forward (footprint_exec hexec)
      exact ih r (hstep ch r w' hadm hexec w'' hlater)
        ⟨(hw.forward.trans hforward).trans hlater.2.toForward, hlater.1.1, hlater.1.2⟩

theorem wp_then {p : ReportApp α} {f : α → ReportApp β} {S : α → Reports → Prop}
    {R : β → Reports → Prop} {E : Exn → Reports → Prop} (hw : Onward since w)
    (hp : figures.wp i p (ends S E) w)
    (hf : ∀ a w', S a w' → Onward since w' → figures.wp i (f a) (ends R E) w') :
    figures.wp i (p >>= f) (ends R E) w :=
  wp_seq (wp_onward hp hw) fun a w' h => hf a w' h.1 h.2

theorem guarded_lockless {c : ReportCmd} (hlockless : lockless c = true)
    (hfoot : Footprint i w c w') (hchange : Change i w c w') : Guarded i w w' := by
  refine ⟨hchange.forward hfoot, ?_, fun p _ => ?_⟩
  · cases hfoot with
    | within hwithin => exact keysOf_congr hwithin.locks i
    | locked => cases hlockless
    | wrote hlocks => exact keysOf_congr hlocks i
    | wroteRetention hwarehouse => exact keysOf_congr (congrArg Warehouse.locks hwarehouse) i
    | closed hclosing => rw [closing_of_lockless hlockless] at hclosing; cases hclosing
  · cases hchange with
    | nothing hsame => rw [hsame.rows]
    | committed => cases hlockless
    | _ => rfl

theorem wp_answer {c : ReportCmd} (hlockless : lockless c = true) (hduty : figureDuty i w c) :
    figures.wp i (query c) (ends (fun a w' => Answer i w c a ∧ Guarded i w w') fun _ _ => True)
      w := by
  apply wp_perform hduty (fun _ _ _ => trivial)
  intro ch r w₁ _ hexec w₂ hlater
  cases r with
  | error e => trivial
  | ok a =>
      exact ⟨answer_exec hexec,
        (guarded_lockless hlockless (footprint_exec hexec) (change_exec hexec)).trans hlater.2⟩

theorem wp_granted {key : Int} :
    figures.wp i (query (.metric (.advisoryLock key)))
      (ends (fun _ w' => key ∈ keysOf i w') fun _ _ => True) w := by
  apply wp_perform trivial (fun _ _ _ => trivial)
  intro ch r w₁ _ hexec w₂ hlater
  cases r with
  | error e => trivial
  | ok u =>
      have hkeys : keysOf i w₂ = keysOf i w ++ [key] :=
        hlater.2.keys.trans (keysOf_locked_self (locks_of_granted hexec))
      change key ∈ keysOf i w₂
      rw [hkeys]
      exact List.mem_append_right _ (List.mem_singleton_self _)

end Rules

section Programs

variable {settings : Settings} {since w w' : Reports} {i : Nat} {p : Period} {counts : List Nat}

/-- The first counts of a period have been made since, and the snapshot shows no more. -/
structure Tally (since : Reports) (p : Period) (counts : List Nat) (w : Reports) : Prop where
  read : List.Forall₂ (fun q n => ReadBetween since.warehouse.events w.warehouse.events
    (distinct (usersOf q)) n) ((queriesOf p).take counts.length) counts
  exceeds : ∀ old, w.warehouse.rows p = some old →
    List.Forall₂ (· ≤ ·) ((countsOf p old).take counts.length) counts

theorem tally_nil (since : Reports) (p : Period) (w : Reports) : Tally since p [] w :=
  ⟨.nil, fun _ _ => .nil⟩

theorem Tally.guarded (h : Tally since p counts w) (hkept : Guarded i w w')
    (hkey : keyOf p ∈ keysOf i w) : Tally since p counts w' :=
  ⟨h.read.imp fun _ _ hread => hread.grown hkept.events, fun old hold =>
    h.exceeds old (hkept.rows p hkey ▸ hold)⟩

theorem Tally.snoc (h : Tally since p counts w) (hw : Onward since w)
    {q : Int × Int × Option String} (hq : (queriesOf p)[counts.length]? = some q) :
    Tally since p (counts ++ [distinct (usersOf q) w.warehouse.events]) w := by
  refine ⟨?_, fun old hold => ?_⟩
  · rw [List.length_append, List.length_singleton, List.take_add_one, hq]
    exact List.rel_append h.read (.cons (readBetween_now _ hw.before) .nil)
  · have hcounts := hw.genuine.rows p old hold
    obtain ⟨hk, rfl⟩ := List.getElem?_eq_some_iff.mp hq
    have hk' : counts.length < (countsOf p old).length := hcounts.length_eq ▸ hk
    rw [List.length_append, List.length_singleton, List.take_add_one,
      List.getElem?_eq_getElem hk']
    exact List.rel_append (h.exceeds old hold)
      (.cons ((hcounts.get hk hk').le (growing_distinct _)) .nil)

/-- A session at work on a snapshot: it holds the lock, and has made some counts. -/
structure Counting (since : Reports) (i : Nat) (p : Period) (counts : List Nat) (w : Reports) :
    Prop where
  key : keyOf p ∈ keysOf i w
  tally : Tally since p counts w

theorem Counting.guarded (h : Counting since i p counts w) (hkept : Guarded i w w') :
    Counting since i p counts w' :=
  ⟨hkept.keys ▸ h.key, h.tally.guarded hkept h.key⟩

theorem wp_granted_counting (since : Reports) (p : Period) {key : Int} (hkey : keyOf p = key) :
    figures.wp i (inReports (ask (.advisoryLock key)))
      (ends (fun _ => Counting since i p []) fun _ _ => True) w := by
  rw [inReports_ask]
  exact wp_ends_mono (fun _ w' h => ⟨hkey ▸ h, tally_nil since p w'⟩) (fun _ _ _ => trivial)
    wp_granted

theorem wp_count {start stop : Int} {eventType : Option String}
    (hq : (queriesOf p)[counts.length]? = some (start, stop, eventType)) (hw : Onward since w)
    (h : Counting since i p counts w) :
    figures.wp i (inReports (ask (.countUsers start stop eventType)))
      (ends (fun n => Counting since i p (counts ++ [n])) fun _ _ => True) w := by
  rw [inReports_ask]
  refine wp_ends_mono (fun n w' hn => ?_) (fun _ _ _ => trivial) (wp_answer rfl trivial)
  obtain ⟨rfl, hkept⟩ := hn
  exact Counting.guarded ⟨h.key, h.tally.snoc hw hq⟩ hkept

theorem wp_counting {c : MetricsCmd} (hlockless : lockless (.metric c) = true)
    (hduty : figureDuty i w (.metric c)) (h : Counting since i p counts w) :
    figures.wp i (inReports (ask c)) (ends (fun _ => Counting since i p counts) fun _ _ => True)
      w := by
  rw [inReports_ask]
  exact wp_ends_mono (fun a w' ha => h.guarded ha.2) (fun _ _ _ => trivial)
    (wp_answer hlockless hduty)

theorem wp_computeDau_figure {d : Day} (hw : Onward since w) :
    figures.wp i (inReports (computeDau settings d))
      (ends (fun n w' => CountsBetween (.dau d) since.warehouse.events w'.warehouse.events [n])
        fun _ _ => True) w := by
  simp only [computeDau, inReports_bind]
  refine wp_then hw (wp_granted_counting since (.dau d) rfl) fun _ w₁ h₁ hw₁ => ?_
  refine wp_then hw₁ (wp_count rfl hw₁ h₁) fun dau w₂ h₂ hw₂ => ?_
  refine wp_then hw₂ (wp_counting rfl trivial h₂) fun _ w₃ h₃ hw₃ => ?_
  refine wp_then hw₃ (wp_counting rfl trivial h₃) fun _ w₄ h₄ hw₄ => ?_
  refine wp_then hw₄ (wp_counting rfl ⟨h₄.key, fun row hrow => ?_⟩ h₄) fun _ w₅ h₅ hw₅ => ?_
  · have hvalue : countsOf (.dau d) row = [dau] := by rcases hrow with rfl | rfl <;> rfl
    refine ⟨?_, fun old hold => ?_⟩
    · rw [hvalue]
      exact CountsBetween.ever h₄.tally.read
    · rw [hvalue]
      exact h₄.tally.exceeds old hold
  · refine wp_then hw₅ (wp_counting rfl trivial h₅) fun _ w₆ h₆ hw₆ => ?_
    refine wp_then hw₆ (wp_counting rfl (CountsBetween.ever h₆.tally.read) h₆)
      fun _ w₇ h₇ hw₇ => ?_
    exact h₇.tally.read

theorem wp_computeFunnel_figure {a b : Day} (hw : Onward since w) :
    figures.wp i (inReports (computeFunnel settings a b))
      (ends (fun snap w' => CountsBetween (.funnel a b) since.warehouse.events
        w'.warehouse.events (countsOf (.funnel a b) snap)) fun _ _ => True) w := by
  simp only [computeFunnel, inReports_bind]
  refine wp_then hw (wp_granted_counting since (.funnel a b) rfl) fun _ w₁ h₁ hw₁ => ?_
  refine wp_then hw₁ (wp_count rfl hw₁ h₁) fun view w₂ h₂ hw₂ => ?_
  refine wp_then hw₂ (wp_count rfl hw₂ h₂) fun search w₃ h₃ hw₃ => ?_
  refine wp_then hw₃ (wp_count rfl hw₃ h₃) fun cart w₄ h₄ hw₄ => ?_
  refine wp_then hw₄ (wp_count rfl hw₄ h₄) fun order w₅ h₅ hw₅ => ?_
  refine wp_then hw₅ (wp_counting rfl trivial h₅) fun computedAt w₆ h₆ hw₆ => ?_
  refine wp_then hw₆ (wp_counting rfl ⟨h₆.key, fun row hrow => ?_⟩ h₆) fun _ w₇ h₇ hw₇ => ?_
  · obtain rfl : row = ⟨view, search, cart, order, computedAt⟩ := hrow.elim id id
    exact ⟨CountsBetween.ever h₆.tally.read, h₆.tally.exceeds⟩
  · refine wp_then hw₇ (wp_counting rfl (CountsBetween.ever h₇.tally.read) h₇)
      fun _ w₈ h₈ hw₈ => ?_
    exact h₈.tally.read

theorem wp_metric {c : MetricsCmd} (hlockless : lockless (.metric c) = true)
    (hduty : figureDuty i w (.metric c)) :
    figures.wp i (inReports (ask c))
      (ends (fun a w' => Answer i w (.metric c) a ∧ Guarded i w w') fun _ _ => True) w := by
  rw [inReports_ask]
  exact wp_answer hlockless hduty

theorem countsBetween_own (hw : Onward since w) {row : p.Row}
    (hrow : (w.warehouse.own? i p).or (w.warehouse.rows p) = some row) :
    CountsBetween p [] w.warehouse.events (countsOf p row) := by
  rcases Option.or_eq_some_iff.mp hrow with hown | ⟨-, hrow⟩
  · exact hw.genuine.written i p row (Warehouse.mem_of_own? hown)
  · exact hw.genuine.rows p row hrow

theorem wp_getDau_figure {d : Day} (hw : Onward since w) :
    figures.wp i (inReports (getDau settings (some d)))
      (ends (fun r w' => DAUResponse.Holds since w' r ∧ r.metricDate = d) fun _ _ => True) w := by
  simp only [getDau, Prog.pure_eq, Prog.ret_bind, inReports_bind]
  refine wp_then hw (wp_metric rfl trivial) fun cached w₁ h₁ hw₁ => ?_
  cases cached with
  | some data =>
      obtain ⟨c, hc, rfl⟩ := h₁.1 data rfl
      exact ⟨(hw.genuine.cache _ c hc).grown h₁.2.events, rfl⟩
  | none =>
      simp only [inReports_bind]
      refine wp_then hw₁ (wp_metric rfl trivial) fun found w₂ h₂ hw₂ => ?_
      cases found with
      | some row =>
          have hrow := (countsBetween_own hw₁ h₂.1.symm).grown h₂.2.events
          simp only [inReports_bind]
          refine wp_then hw₂ (wp_metric rfl hrow) fun _ w₃ h₃ hw₃ => ?_
          exact ⟨hrow.grown h₃.2.events, rfl⟩
      | none =>
          simp only [inReports_bind]
          refine wp_then hw₂ (wp_computeDau_figure hw₂) fun dau w₃ h₃ hw₃ => ?_
          refine wp_then hw₃ (wp_metric rfl trivial) fun _ w₄ h₄ hw₄ => ?_
          exact ⟨h₃.grown h₄.2.events, rfl⟩

theorem wp_getFunnel_figure {windowStart windowEnd : Option Day} (hw : Onward since w) :
    figures.wp i (inReports (getFunnel settings windowStart windowEnd))
      (ends (fun r w' => FunnelResponse.Holds since w' r) fun _ _ => True) w := by
  simp only [getFunnel, inReports_bind]
  refine wp_then hw (wp_metric rfl trivial) fun t w₁ h₁ hw₁ => ?_
  refine wp_then hw₁ (wp_metric rfl trivial) fun cached w₂ h₂ hw₂ => ?_
  cases cached with
  | some data =>
      obtain ⟨c, hc, rfl⟩ := h₂.1 data rfl
      exact ⟨(hw₁.genuine.cache _ c hc).grown h₂.2.events, rfl⟩
  | none =>
      simp only [inReports_bind]
      refine wp_then hw₂ (wp_metric rfl trivial) fun found w₃ h₃ hw₃ => ?_
      cases found with
      | some row => exact ⟨(countsBetween_own hw₂ h₃.1.symm).grown h₃.2.events, rfl⟩
      | none =>
          simp only [inReports_bind]
          exact wp_then hw₃ (wp_computeFunnel_figure hw₃) fun snap w₄ h₄ hw₄ => ⟨h₄, rfl⟩

theorem distinct_among_nil (start stop : Int) (events : List EventRow) :
    distinct (userAmong [] start stop) events = 0 := by
  simp [distinct, values, userAmong]

theorem wp_retainedOf_figure {d : Day} {log : List EventRow} (hw : Onward since w)
    (hsince : since.warehouse.events <+: log) (hlog : log <+: w.warehouse.events) :
    let users := cohortOf log (midnight d) (midnight (d + 1))
    figures.wp i (retainedOf d users)
      (ends (fun retained w' => Retained d since.warehouse.events w'.warehouse.events users.length
        retained.1 retained.2) fun _ _ => True) w := by
  intro users
  unfold retainedOf
  split
  · rename_i hempty
    have hnone : users = [] := List.length_eq_zero_iff.mp hempty
    refine ⟨log, log, log, hsince, List.prefix_refl _, List.prefix_refl _, hlog, rfl, ?_, ?_⟩
    · exact (hnone ▸ distinct_among_nil _ _ _).symm
    · exact (hnone ▸ distinct_among_nil _ _ _).symm
  · refine wp_then hw (wp_answer rfl trivial) fun d1 w₁ h₁ hw₁ => ?_
    refine wp_then hw₁ (wp_answer rfl trivial) fun d7 w₂ h₂ hw₂ => ?_
    exact ⟨log, _, _, hsince, hlog, h₁.2.events, h₂.2.events, rfl, h₁.1, h₂.1⟩

theorem wp_computeRetention_figure {d : Day} (hw : Onward since w) :
    figures.wp i (computeRetention settings d)
      (ends (fun snap w' => RowOf d since.warehouse.events w'.warehouse.events snap)
        fun _ _ => True) w := by
  refine wp_then hw wp_granted fun _ w₁ h₁ hw₁ => ?_
  refine wp_seq_ofExcept (fun _ _ => trivial) fun _ _ => ?_
  refine wp_then hw₁ (wp_answer rfl trivial) fun users w₂ h₂ hw₂ => ?_
  obtain ⟨rfl, hkept₂⟩ := h₂
  refine wp_then hw₂ (wp_retainedOf_figure hw₂ hw₁.before hkept₂.events)
    fun retained w₃ h₃ hw₃ => ?_
  refine wp_then hw₃ (wp_answer rfl trivial) fun now w₄ h₄ hw₄ => ?_
  have hretained := h₃.grown h₄.2.events
  refine wp_then hw₄ (wp_answer rfl ⟨hretained.ever, rfl, rfl⟩) fun _ w₅ h₅ hw₅ => ?_
  have hretained₅ := hretained.grown h₅.2.events
  refine wp_then hw₅ (wp_answer rfl ⟨hretained₅.ever, rfl, rfl⟩) fun _ w₆ h₆ hw₆ => ?_
  exact ⟨hretained₅.grown h₆.2.events, rfl, rfl⟩

theorem SnapshotOf.load {d : Day} {events : List EventRow} {columns : RetentionColumns}
    (h : SnapshotOf d events columns) :
    let row := columns.load
    Retained d [] events row.cohortSize row.d1Retained row.d7Retained ∧
      RateOf row.d1Retained row.cohortSize row.d1Rate ∧
      RateOf row.d7Retained row.cohortSize row.d7Rate := by
  obtain ⟨row, ⟨hretained, hd1, hd7⟩, hstore⟩ := h
  obtain ⟨-, hsize, hd1Retained, hd7Retained, hd1Rate, hd7Rate⟩ := store_retention hstore
  intro loaded
  rw [hd1] at hd1Rate
  rw [hd7] at hd7Rate
  rw [hsize, hd1Retained, hd7Retained]
  exact ⟨hretained, .inr ⟨_, hd1Rate, rfl⟩, .inr ⟨_, hd7Rate, rfl⟩⟩

theorem wp_getRetention_figure {cohortDate : Option Day} (hw : Onward since w) :
    figures.wp i (getRetention settings cohortDate)
      (ends (fun r w' => RetentionResponse.Holds since w' r) fun _ _ => True) w := by
  refine wp_then hw (wp_answer rfl trivial) fun t w₁ h₁ hw₁ => ?_
  refine wp_then hw₁ (wp_answer rfl trivial) fun cached w₂ h₂ hw₂ => ?_
  cases cached with
  | some data =>
      obtain ⟨expiry, hc⟩ := h₂.1 data rfl
      obtain ⟨hretained, hd1, hd7⟩ := hw₁.genuine.retentionCache _ _ hc
      refine ⟨hretained.grown h₂.2.events, .inl ?_, .inl ?_⟩
      · change data.d1Rate.decimal = _
        rw [hd1, Decimal.decimal_str]
        rfl
      · change data.d7Rate.decimal = _
        rw [hd7, Decimal.decimal_str]
        rfl
  | none =>
      refine wp_then hw₂ (wp_answer rfl trivial) fun found w₃ h₃ hw₃ => ?_
      cases found with
      | some row =>
          obtain ⟨columns, hcolumns, rfl⟩ := Option.map_eq_some_iff.mp h₃.1.symm
          have hsnapshot : SnapshotOf (cohortDate.getD (dateOf t - 8)) w₂.warehouse.events
              columns := by
            rcases Option.or_eq_some_iff.mp hcolumns with hown | ⟨-, hcolumns⟩
            · exact hw₂.genuine.retentionWritten i _ _ (mem_of_ownRetention? hown)
            · exact hw₂.genuine.retention _ _ hcolumns
          exact (hsnapshot.grown h₃.2.events).load
      | none =>
          refine wp_then hw₃ (wp_computeRetention_figure hw₃) fun snap w₄ h₄ hw₄ => ?_
          exact ⟨h₄.1, .inl h₄.2.1, .inl h₄.2.2⟩

theorem wp_getRealtimeEpm_figure (hw : Onward since w) :
    figures.wp i (getRealtimeEpm settings)
      (ends (fun r w' => RealtimeEPMResponse.Holds since w' r ∧
        OfMinute 0 w'.warehouse.clock [] w'.warehouse.events r.eventsPerMinute) fun _ _ => True)
      w := by
  refine wp_then hw (wp_answer rfl trivial) fun cached w₁ h₁ hw₁ => ?_
  cases cached with
  | some epm =>
      obtain ⟨expiry, hc⟩ := h₁.1 epm rfl
      have hminute := (hw.genuine.epm _ hc).grown h₁.2.clock h₁.2.events
      exact ⟨hminute, hminute⟩
  | none =>
      refine wp_then hw₁ (wp_answer rfl trivial) fun now w₂ h₂ hw₂ => ?_
      refine wp_then hw₂ (wp_answer rfl trivial) fun epm w₃ h₃ hw₃ => ?_
      obtain ⟨rfl, hkept₂⟩ := h₂
      have hminute : OfMinute since.warehouse.clock w₃.warehouse.clock since.warehouse.events
          w₃.warehouse.events epm :=
        ⟨w₁.warehouse.clock, hw₁.forward.clock, hkept₂.clock.trans h₃.2.clock,
          ⟨w₂.warehouse.events, hw₂.before, h₃.2.events, h₃.1.symm⟩⟩
      refine wp_then hw₃ (wp_answer rfl hminute.ever) fun _ w₄ h₄ hw₄ => ?_
      have hlast := hminute.grown h₄.2.clock h₄.2.events
      exact ⟨hlast, hlast.ever⟩

theorem wp_forward {α : Type} {p : ReportApp α} {R : α → Reports → Prop}
    {E : Exn → Reports → Prop} (hp : figures.wp i p (ends R E) w) :
    figures.wp i p (ends (fun a w' => R a w' ∧ Forward w w') E) w :=
  wp_frame (fun _ _ _ _ _ hexec h => h.trans ((change_exec hexec).forward (footprint_exec hexec)))
    (fun _ _ hkept h => h.trans hkept.toForward) hp (.refl w)

theorem wp_getApproxDauHll_any (d : Day) :
    figures.wp i (getApproxDauHll (some d)) (ends (fun _ _ => True) fun _ _ => True) w := by
  simp only [getApproxDauHll, Prog.pure_eq, Prog.ret_bind]
  exact wp_seq (wp_perform_any trivial) fun _ _ _ =>
    wp_seq (wp_perform_any trivial) fun _ _ _ => trivial

section Forward

variable {now now' : Reports}

theorem DAUResponse.Holds.forward {r : DAUResponse} (h : DAUResponse.Holds since now r)
    (hforward : Forward now now') : DAUResponse.Holds since now' r :=
  CountsBetween.grown h hforward.events

theorem FunnelResponse.Holds.forward {r : FunnelResponse} (h : FunnelResponse.Holds since now r)
    (hforward : Forward now now') : FunnelResponse.Holds since now' r :=
  ⟨CountsBetween.grown h.1 hforward.events, h.2⟩

theorem RetentionResponse.Holds.forward {r : RetentionResponse}
    (h : RetentionResponse.Holds since now r) (hforward : Forward now now') :
    RetentionResponse.Holds since now' r :=
  ⟨h.1.grown hforward.events, h.2⟩

theorem RealtimeEPMResponse.Holds.forward {r : RealtimeEPMResponse}
    (h : RealtimeEPMResponse.Holds since now r) (hforward : Forward now now') :
    RealtimeEPMResponse.Holds since now' r := by
  unfold RealtimeEPMResponse.Holds at h ⊢
  split
  · rw [if_pos ‹_›] at h
    exact h.grown hforward.clock hforward.events
  · rw [if_neg ‹_›] at h
    exact h.grown hforward.clock hforward.events

theorem MetricsSummary.Holds.forward {r : MetricsSummary} (h : MetricsSummary.Holds since now r)
    (hforward : Forward now now') : MetricsSummary.Holds since now' r where
  dauToday := by
    obtain ⟨t, hsince, ht, hcounts⟩ := h.dauToday
    exact ⟨t, hsince, ht.trans hforward.clock, hcounts.grown hforward.events⟩
  eventsTotal := h.eventsTotal.grown hforward.events
  eventsLastMinute := h.eventsLastMinute.grown hforward.clock hforward.events
  funnel := h.funnel.forward hforward
  retention retention hretention := (h.retention retention hretention).forward hforward

theorem Figure.Holds.forward {f : Figure} (h : f.Holds since now) (hforward : Forward now now') :
    f.Holds since now' := by
  cases f with
  | dau r => exact DAUResponse.Holds.forward h hforward
  | funnel r => exact FunnelResponse.Holds.forward h hforward
  | retention r => exact RetentionResponse.Holds.forward h hforward
  | epm r => exact RealtimeEPMResponse.Holds.forward h hforward
  | summary r => exact MetricsSummary.Holds.forward h hforward
  | dauJob today value => exact CountsBetween.grown h hforward.events
  | funnelJob start today snap => exact CountsBetween.grown h hforward.events
  | retentionJob cohortDate snap => exact ⟨h.1.grown hforward.events, h.2⟩

end Forward

theorem wp_getSummary_figure (hw : Onward since w) :
    figures.wp i (getSummary settings)
      (ends (fun r w' => MetricsSummary.Holds since w' r) fun _ _ => True) w := by
  refine wp_then hw (wp_answer rfl trivial) fun t w₁ h₁ hw₁ => ?_
  refine wp_then hw₁ (wp_forward (wp_getDau_figure hw₁)) fun dau w₂ h₂ hw₂ => ?_
  refine wp_then hw₂ (wp_forward (wp_getApproxDauHll_any _)) fun _ w₃ h₃ hw₃ => ?_
  refine wp_then hw₃ (wp_forward (wp_getRealtimeEpm_figure hw₃)) fun epm w₄ h₄ hw₄ => ?_
  refine wp_then hw₄ (wp_forward (wp_getFunnel_figure hw₄)) fun funnel w₅ h₅ hw₅ => ?_
  refine wp_then hw₅ (wp_answer rfl trivial) fun total w₆ h₆ hw₆ => ?_
  refine wp_then hw₆ (wp_forward (R := fun r w' => ∀ retention, r = some retention →
    RetentionResponse.Holds since w' retention) (wp_try (F := fun _ _ => True) ?_ ?_))
    fun retention w₇ h₇ hw₇ => ?_
  · rw [Prog.map_eq]
    refine wp_seq (wp_getRetention_figure hw₆) fun r w₇ h₇ => ?_
    rintro _ ⟨⟩
    exact h₇
  · rintro e w₇ - retention ⟨⟩
  · have hfrom₅ : Forward w₅ w₇ := h₆.2.toForward.trans h₇.2
    have hfrom₄ : Forward w₄ w₇ := h₅.2.trans hfrom₅
    have hfrom₂ : Forward w₂ w₇ := (h₃.2.trans h₄.2).trans hfrom₄
    obtain ⟨⟨hdau, hday⟩, hforward₂⟩ := h₂
    have hcounts := (CountsBetween.ever hdau).grown hfrom₂.events
    rw [hday] at hcounts
    exact {
      dauToday := ⟨t, h₁.1 ▸ hw.forward.clock,
        (h₁.1 ▸ h₁.2.clock).trans (hforward₂.trans hfrom₂).clock, hcounts⟩
      eventsTotal := ⟨w₅.warehouse.events, hw₅.before, hfrom₅.events, h₆.1.symm⟩
      eventsLastMinute := h₄.1.2.grown hfrom₄.clock hfrom₄.events
      funnel := h₅.1.forward hfrom₅
      retention := h₇.1 }

theorem wp_withSession_figure {α : Type} {body : ReportApp α} {R : α → Reports → Prop}
    (hR : ∀ a w w', Forward w w' → R a w → R a w')
    (h : figures.wp i body (ends R fun _ _ => True) w) :
    figures.wp i (withSession (query (.metric .rollback)) body) (ends R fun _ _ => True) w := by
  unfold withSession
  refine wp_seq (S := R) (wp_try h fun _ w₁ _ => ?_) fun a w₁ h₁ => ?_
  · exact wp_seq (wp_perform_any trivial) fun _ _ _ => trivial
  · exact wp_seq (wp_forward (wp_perform_any trivial)) fun _ w₂ h₂ => hR a w₁ w₂ h₂.2 h₁

theorem wp_committing {α : Type} {body : ReportApp α} {f : α → Figure}
    (h : figures.wp i body (ends (fun a w' => (f a).Holds since w') fun _ _ => True) w) :
    figures.wp i (withSession (query (.metric .rollback)) do
      let a ← body
      query (.metric .commit)
      pure a) (ends (fun a w' => (f a).Holds since w') fun _ _ => True) w := by
  refine wp_withSession_figure (fun a w w' hforward h => h.forward hforward) ?_
  refine wp_seq h fun a w₁ h₁ => ?_
  exact wp_seq (wp_forward (wp_perform_any trivial)) fun _ w₂ h₂ => h₁.forward h₂.2

theorem wp_serving {α : Type} {handler : ReportApp α} {f : α → Figure}
    (h : figures.wp i handler (ends (fun a w' => (f a).Holds since w') fun _ _ => True) w) :
    figures.wp i (f <$> reportsRequest handler)
      (ends (fun figure w' => figure.Holds since w') fun _ _ => True) w := by
  rw [Prog.map_eq]
  exact wp_seq (wp_committing h) fun _ _ h₁ => h₁

theorem inReports_job {α : Type} (compute : MetricsApp α) :
    inReports (withSession (ask .rollback) (compute >>= fun a => ask .commit >>= fun _ => pure a)) =
      withSession (query (.metric .rollback))
        (inReports compute >>= fun a => query (.metric .commit) >>= fun _ => pure a) := by
  rw [inReports_withSession, inReports_ask]
  simp only [inReports_bind]
  refine congrArg (withSession _) (congrArg (inReports compute >>= ·) (funext fun a => ?_))
  exact congrArg (· >>= fun _ => pure a) (inReports_ask .commit)

theorem Reading.wp (hw : Onward since w) (reading : Reading) :
    figures.wp i (reading.run settings)
      (ends (fun figure w' => figure.Holds since w') fun _ _ => True) w := by
  cases reading with
  | getDau d =>
      refine wp_serving ?_
      cases d with
      | some d => exact wp_ends_mono (fun _ _ h => h.1) (fun _ _ h => h) (wp_getDau_figure hw)
      | none =>
          have hsplit : inReports (Services.getDau settings none) =
              inReports (dateOf <$> ask .now) >>= fun d =>
                inReports (Services.getDau settings (some d)) :=
            inReports_bind (dateOf <$> ask .now) fun d => Services.getDau settings (some d)
          have htoday : figures.wp i (inReports (dateOf <$> ask .now))
              (ends (fun _ _ => True) fun _ _ => True) w := by
            rw [Prog.map_eq, inReports_bind]
            exact wp_seq (wp_metric (c := .now) rfl trivial) fun _ _ _ => trivial
          rw [hsplit]
          refine wp_then hw htoday fun d w₁ _ hw₁ => ?_
          exact wp_ends_mono (fun _ _ h => h.1) (fun _ _ h => h) (wp_getDau_figure hw₁)
  | getFunnel a b => exact wp_serving (wp_getFunnel_figure hw)
  | getRetention d => exact wp_serving (wp_getRetention_figure hw)
  | getRealtimeEpm =>
      exact wp_serving
        (wp_ends_mono (fun _ _ h => h.1) (fun _ _ h => h) (wp_getRealtimeEpm_figure hw))
  | getSummary => exact wp_serving (wp_getSummary_figure hw)
  | computeDauJob =>
      refine wp_seq (S := fun (job : Day × Nat) w' => (Figure.dauJob job.1 job.2).Holds since w')
        ?_ fun _ _ h => h
      simp only [Workers.computeDauJob, inReports_bind, inReports_job]
      refine wp_then hw (wp_metric (c := .now) rfl trivial) fun t w₁ _ hw₁ => ?_
      exact wp_seq (wp_committing (f := fun value => .dauJob (dateOf t) value)
        (wp_computeDau_figure hw₁)) fun value w₂ h₂ => h₂
  | computeFunnelJob =>
      refine wp_seq (S := fun (job : Day × Day × FunnelRow) w' =>
        (Figure.funnelJob job.1 job.2.1 job.2.2).Holds since w') ?_ fun _ _ h => h
      simp only [Workers.computeFunnelJob, inReports_bind, inReports_job]
      refine wp_then hw (wp_metric (c := .now) rfl trivial) fun t w₁ _ hw₁ => ?_
      exact wp_seq (wp_committing (f := fun snap => .funnelJob (dateOf t - 6) (dateOf t) snap)
        (wp_computeFunnel_figure hw₁)) fun snap w₂ h₂ => h₂
  | computeRetentionJob =>
      refine wp_seq (S := fun (job : Day × RetentionRow) w' =>
        (Figure.retentionJob job.1 job.2).Holds since w') ?_ fun _ _ h => h
      refine wp_then hw (wp_answer (c := .metric .now) rfl trivial) fun t w₁ _ hw₁ => ?_
      exact wp_seq (wp_committing (f := fun snap => .retentionJob (dateOf t - 8) snap)
        (wp_computeRetention_figure hw₁)) fun snap w₂ h₂ => h₂

end Programs

def readings (settings : Settings) (tasks : Nat → Reading) (w : Reports) :
    Config ReportCmd.Resp Exn Reports Figure :=
  ⟨w, fun i => .ready ((tasks i).run settings)⟩

section Runs

variable {settings : Settings} {tasks : Nat → Reading} {start : Reports}
  {since cfg : Config ReportCmd.Resp Exn Reports Figure}

theorem Closed.ordered {w : Reports} (h : Closed w) : Ordered w := by
  refine ⟨fun i j k hi => ?_, fun i p row hrow => ?_, fun i p row hrow => ?_⟩
  · simp [keysOf, h.locks] at hi
  · simp [h.written] at hrow
  · simp [h.written] at hrow

theorem keeps_readings (hclosed : Closed start) (hgenuine : Genuine start) :
    figures.Keeps (fun _ => ends (fun _ _ => True) fun _ _ => True)
      (readings settings tasks start) := by
  have hinv : figures.inv start := ⟨hgenuine, hclosed.ordered⟩
  refine keeps_ready hinv _ fun i w hlater => ?_
  have hw : Onward w w := ⟨.refl w, hlater.1.1, hlater.1.2⟩
  exact wp_ends_mono (fun _ _ _ => trivial) (fun _ _ h => h) ((tasks i).wp hw)

/-- Whatever requests, jobs, failures and events come between: the figures that are served
have been read off the events, at a moment of the past, and those that are computed count
all events that were stored when their request began. -/
theorem figures_hold (hclosed : Closed start) (hgenuine : Genuine start)
    (hbefore : Reach reports .any (readings settings tasks start) since) {i : Nat}
    {p : ReportApp Figure} (hready : since.threads i = .ready p)
    (hafter : Reach reports .any since cfg) {figure : Figure}
    (hfigure : (cfg.threads i).result? = some figure) :
    figure.Holds since.world cfg.world := by
  have hkeeps := (keeps_readings hclosed hgenuine).reach hbefore
  have hstart := hbefore.ready hready
  cases hstart
  have hdue := hkeeps.due hready fun w hlater => by
    have hw : Onward since.world w := ⟨hlater.2.toForward, hlater.1.1, hlater.1.2⟩
    exact Reading.wp hw (tasks i)
  have hreturned := (hdue.reach hafter).returned (Thread.result?_eq_some.mp hfigure)
  rw [setAt_self] at hreturned
  exact hreturned

/-- Snapshots stay, and their counts do not fall. -/
def Rises (w w' : Reports) : Prop :=
  ∀ p old, w.warehouse.rows p = some old →
    ∃ row, w'.warehouse.rows p = some row ∧
      List.Forall₂ (· ≤ ·) (countsOf p old) (countsOf p row)

theorem rises_of_rows {w w' : Reports} (hrows : w'.warehouse.rows = w.warehouse.rows) :
    Rises w w' :=
  fun _ old hold => ⟨old, hrows ▸ hold, List.forall₂_same.mpr fun n _ => le_refl n⟩

theorem Rises.trans {a b c : Reports} (hab : Rises a b) (hbc : Rises b c) : Rises a c := by
  intro p old hold
  obtain ⟨row, hrow, hle⟩ := hab p old hold
  obtain ⟨row', hrow', hle'⟩ := hbc p row hrow
  exact ⟨row', hrow', forall₂_le_trans hle hle'⟩

theorem CountsBetween.le_exact {p : Period} {before after : List EventRow} {counts : List Nat}
    (h : CountsBetween p before after counts) :
    List.Forall₂ (· ≤ ·) counts (exactCounts p after) := by
  unfold exactCounts
  rw [List.forall₂_map_right_iff]
  exact List.Forall₂.flip (h.imp fun q n hread => hread.le (growing_distinct (usersOf q)))

/-- Whatever requests, jobs, failures and events come between: a snapshot of the daily users
or of the funnel stays, its counts do not fall, and they are not above the present ones. -/
theorem snapshots_rise (hclosed : Closed start) (hgenuine : Genuine start)
    (hbefore : Reach reports .any (readings settings tasks start) since)
    (hafter : Reach reports .any since cfg) {p : Period} {old : p.Row}
    (hold : since.world.warehouse.rows p = some old) :
    ∃ row, cfg.world.warehouse.rows p = some row ∧
      List.Forall₂ (· ≤ ·) (countsOf p old) (countsOf p row) ∧
      List.Forall₂ (· ≤ ·) (countsOf p row) (exactCounts p cfg.world.warehouse.events) := by
  have hkeeps := (keeps_readings hclosed hgenuine).reach hbefore
  have hrises : Rises since.world cfg.world := by
    refine hkeeps.related (fun w => rises_of_rows rfl) (fun _ _ _ => .trans) ?_ ?_ ?_ hafter
    · exact fun i ch w c r w' hinv _ hexec p old hold => hinv.2.rise (change_exec hexec) hold
    · exact fun i w _ => rises_of_rows rfl
    · exact fun e w w' _ henv => rises_of_rows (later_env henv).rows
  obtain ⟨row, hrow, hle⟩ := hrises p old hold
  exact ⟨row, hrow, hle, ((hkeeps.reach hafter).inv.1.rows p row hrow).le_exact⟩

end Runs

/-- The snapshot of the day is older than its only event. -/
def staleDay : Reports :=
  { newYearsEve with
    warehouse := { newYearsEve.warehouse with
      clock := 0
      events := [lateEvent]
      rows := Function.update newYearsEve.warehouse.rows (.dau 0) (some ⟨0, 0⟩) } }

theorem genuine_staleDay : Genuine staleDay := by
  refine ⟨fun p row hrow => ?_, fun p c hc => ?_, fun i p row hrow => ?_, fun d columns hd => ?_,
    fun d c hc => ?_, fun i d columns hd => ?_, fun c hc => ?_⟩
  · by_cases hp : p = .dau 0
    · subst hp
      simp only [staleDay, Function.update_self, Option.some.injEq] at hrow
      subst hrow
      exact .cons ⟨[], List.nil_prefix, List.nil_prefix, rfl⟩ .nil
    · simp [staleDay, newYearsEve, Function.update_of_ne hp] at hrow
  · cases hc
  · cases hrow
  · cases hd
  · cases hc
  · cases hd
  · cases hc

def readAndCompute (i : Nat) : Reading :=
  if i = 0 then .getDau none else .computeDauJob

def Figure.dau? : Figure → Option DAUResponse
  | .dau r => some r
  | _ => none

theorem figures_hold_stale :
    ∃ cfg figure, Reach reports .any (readings {} readAndCompute staleDay) cfg ∧
      (cfg.threads 0).result? = some figure ∧
      figure.dau?.map (fun r => (r.dau, r.source)) = some (0, .database) ∧
      figure.Holds staleDay cfg.world := by
  obtain ⟨cfg, hreach, htest⟩ := exists_reach_of_run (M := reports) (π := .any)
    (.start 0 :: List.replicate 6 (.step 0 .ok)) (readings {} readAndCompute staleDay)
    (fun cfg => ((cfg.threads 0).result?.bind Figure.dau?).map (fun r => (r.dau, r.source)) =
      some (0, .database)) (by decide +kernel)
  obtain ⟨r, hr, hread⟩ := Option.map_eq_some_iff.mp (of_decide_eq_true htest)
  obtain ⟨figure, hfigure, hdau⟩ := Option.bind_eq_some_iff.mp hr
  refine ⟨cfg, figure, hreach, hfigure, by rw [hdau]; exact congrArg some hread, ?_⟩
  exact figures_hold ⟨rfl, rfl, rfl⟩ genuine_staleDay .refl rfl hreach hfigure

theorem snapshots_rise_stale :
    ∃ cfg row, Reach reports .any (readings {} readAndCompute staleDay) cfg ∧
      cfg.world.warehouse.rows (.dau 0) = some row ∧ row.value = 1 ∧
      List.Forall₂ (· ≤ ·) [0] (countsOf (.dau 0) row) := by
  obtain ⟨cfg, hreach, htest⟩ := exists_reach_of_run (M := reports) (π := .any)
    (.start 1 :: List.replicate 9 (.step 1 .ok)) (readings {} readAndCompute staleDay)
    (fun cfg => (cfg.world.warehouse.rows (.dau 0)).map DauRow.value = some 1) (by decide +kernel)
  have hold : staleDay.warehouse.rows (.dau 0) = some ⟨0, 0⟩ := rfl
  obtain ⟨row, hrow, hle, -⟩ :=
    snapshots_rise ⟨rfl, rfl, rfl⟩ genuine_staleDay .refl hreach hold
  refine ⟨cfg, row, hreach, hrow, ?_, hle⟩
  have hvalue := of_decide_eq_true htest
  rw [hrow] at hvalue
  exact Option.some.inj hvalue

end EventAnalytics.Workers
