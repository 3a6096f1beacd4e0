import EventAnalytics.Workers.ClosedPeriods

/-! Whether a metric is the same number wherever it comes from: from its computation,
from the cache entry that this writes, or from the columns of its snapshot. A request
runs to its end before the next begins. -/
namespace EventAnalytics.Workers

open Library Db Services

/-- One session, in which nothing fails. -/
def reportsStep (w : Reports) (c : ReportCmd) : Option (Except Exn c.Resp × Reports) :=
  reports.exec 0 .ok w c

inductive Query
  | dau (d : Day)
  | funnel (a b : Day)
  | retention (d : Day)

/-- The numbers of a response. -/
abbrev Query.Fields : Query → Type
  | dau _ => Nat
  | funnel .. => List FunnelStep
  | retention _ => (Nat × Nat × Nat) × ℚ × ℚ

def Query.serve (settings : Settings) : (q : Query) → ReportApp (Source × q.Fields)
  | .dau d => do
    let r ← inReports (getDau settings (some d))
    pure (r.source, r.dau)
  | .funnel a b => do
    let r ← inReports (getFunnel settings (some a) (some b))
    pure (r.source, r.steps)
  | .retention d => do
    let r ← getRetention settings (some d)
    pure (r.source, (r.cohortSize, r.d1Retained, r.d7Retained), r.d1Rate.value, r.d7Rate.value)

/-- A request for a metric, from its session's begin to its end. -/
def Query.request (settings : Settings) (q : Query) (w : Reports) :
    Option (Except Exn (Source × q.Fields) × Reports) :=
  (reportsRequest (q.serve settings)).run reportsStep w

def Query.ttl (settings : Settings) : Query → Nat
  | dau _ => settings.cacheTtlDau
  | funnel .. => settings.cacheTtlFunnel
  | retention _ => settings.cacheTtlRetention

/-- The numbers in the cache, with the time until which they are served. -/
def Query.inCache : (q : Query) → Reports → Option (q.Fields × Nat)
  | .dau d, w => (w.warehouse.cache (.dau d)).map fun c => (c.row.value, c.expiresAt)
  | .funnel a b, w => (w.warehouse.cache (.funnel a b)).map fun c =>
    ((funnelToResponse a b c.row .cache).steps, c.expiresAt)
  | .retention d, w => (w.retentionCache d).map fun c =>
    (((c.1.cohortSize, c.1.d1Retained, c.1.d7Retained), c.1.d1Rate.decimal.value,
      c.1.d7Rate.decimal.value), c.2)

def retentionFields (row : RetentionRow) : (Nat × Nat × Nat) × ℚ × ℚ :=
  ((row.cohortSize, row.d1Retained, row.d7Retained), row.d1Rate.value, row.d7Rate.value)

def Query.inDatabase : (q : Query) → Reports → Option q.Fields
  | .dau d, w => (w.warehouse.rows (.dau d)).map DauRow.value
  | .funnel a b, w => (w.warehouse.rows (.funnel a b)).map fun row =>
    (funnelToResponse a b row .database).steps
  | .retention d, w => (w.retention d).map fun columns => retentionFields columns.load

/-- The numbers of a snapshot that the session has written and not yet committed. -/
def Query.pending : (q : Query) → Reports → Option q.Fields
  | .dau d, w => (w.warehouse.own? 0 (.dau d)).map DauRow.value
  | .funnel a b, w => (w.warehouse.own? 0 (.funnel a b)).map fun row =>
    (funnelToResponse a b row .database).steps
  | .retention d, w => (w.ownRetention? 0 d).map fun columns => retentionFields columns.load

/-- How many users the cohort of a date has, and how many of them came back. -/
def retentionCounts (events : List EventRow) (d : Day) : Nat × Nat × Nat :=
  let users := cohortOf events (midnight d) (midnight (d + 1))
  if users.length = 0 then (0, 0, 0)
  else
    (users.length, distinct (userAmong users (midnight (d + 1)) (midnight (d + 2))) events,
      distinct (userAmong users (midnight (d + 7)) (midnight (d + 8))) events)

/-- The rates of the retention have no more than the four places of their columns. -/
def FourPlaces (events : List EventRow) : Query → Prop
  | .dau _ => True
  | .funnel .. => True
  | .retention d =>
    let counts := retentionCounts events d
    counts.1 ∣ counts.2.1 * 10000 ∧ counts.1 ∣ counts.2.2 * 10000

instance (events : List EventRow) : (q : Query) → Decidable (FourPlaces events q)
  | .dau _ => isTrue trivial
  | .funnel .. => isTrue trivial
  | .retention _ => inferInstanceAs (Decidable (_ ∧ _))

def elapse : List ReportEnv → Reports → Option Reports
  | [], w => some w
  | e :: es, w => (reports.env e w).bind (elapse es)

/-- What the environment leaves as it is. -/
structure Later (w w' : Reports) : Prop where
  rows : w'.warehouse.rows = w.warehouse.rows
  cache : w'.warehouse.cache = w.warehouse.cache
  written : w'.warehouse.written = w.warehouse.written
  locks : w'.warehouse.locks = w.warehouse.locks
  aborted : w'.warehouse.aborted = w.warehouse.aborted
  retention : w'.retention = w.retention
  retentionCache : w'.retentionCache = w.retentionCache
  retentionWritten : w'.retentionWritten = w.retentionWritten

section Runs

variable {settings : Settings} {w w' : Reports} {α β : Type}

theorem later_env {e : ReportEnv} (henv : reports.env e w = some w') : Later w w' := by
  cases e with
  | visit d n =>
      cases henv
      exact ⟨rfl, rfl, rfl, rfl, rfl, rfl, rfl, rfl⟩
  | metric e =>
      obtain ⟨v, hv, rfl⟩ := Option.map_eq_some_iff.mp henv
      cases e <;> cases hv <;> exact ⟨rfl, rfl, rfl, rfl, rfl, rfl, rfl, rfl⟩

theorem later_elapse {es : List ReportEnv} (h : elapse es w = some w') : Later w w' := by
  induction es generalizing w with
  | nil =>
      cases h
      exact ⟨rfl, rfl, rfl, rfl, rfl, rfl, rfl, rfl⟩
  | cons e es ih =>
      obtain ⟨next, henv, hrest⟩ := Option.bind_eq_some_iff.mp h
      have hfirst := later_env henv
      have hlast := ih hrest
      exact ⟨hlast.rows.trans hfirst.rows, hlast.cache.trans hfirst.cache,
        hlast.written.trans hfirst.written, hlast.locks.trans hfirst.locks,
        hlast.aborted.trans hfirst.aborted, hlast.retention.trans hfirst.retention,
        hlast.retentionCache.trans hfirst.retentionCache,
        hlast.retentionWritten.trans hfirst.retentionWritten⟩

theorem run_query {c : ReportCmd} {q : c.Resp → ReportApp β} {b : β}
    (h : (query c >>= q).run reportsStep w = some (.ok b, w')) :
    ∃ a w₁, reportsStep w c = some (.ok a, w₁) ∧ (q a).run reportsStep w₁ = some (.ok b, w') :=
  Prog.run_perform_inv h

theorem run_ask {c : MetricsCmd} {q : c.Resp → ReportApp β} {b : β}
    (h : (inReports (ask c) >>= q).run reportsStep w = some (.ok b, w')) :
    ∃ a w₁, reportsStep w (.metric c) = some (.ok a, w₁) ∧
      (q a).run reportsStep w₁ = some (.ok b, w') := by
  rw [inReports_ask] at h
  exact run_query h

theorem run_request {handler : ReportApp α} {a : α}
    (h : (reportsRequest handler).run reportsStep w = some (.ok a, w')) :
    ∃ w₁, handler.run reportsStep w = some (.ok a, w₁) ∧
      w' = { w₁.commitRetention 0 with
        warehouse := (w₁.warehouse.commitTx 0).rollbackTx 0 } := by
  obtain ⟨w₁, w₂, hhandler, hcommit, hrollback⟩ := run_getDb_inv h
  refine ⟨w₁, hhandler, ?_⟩
  cases hcommit
  cases hrollback
  simp [Reports.settle, Reports.commitRetention, Reports.dropRetention]

section Steps

variable {d : Day} {start stop : Int} {p : Period}

theorem step_now {t : Nat} (h : reportsStep w (.metric .now) = some (.ok t, w')) :
    t = w.warehouse.clock ∧ w' = w := by
  cases h
  exact ⟨rfl, rfl⟩

theorem step_warehouse {c : MetricsCmd} {a : c.Resp}
    (h : w.warehouseExec 0 .ok c = some (.ok a, w')) :
    ∃ v, metricsEffect 0 w.warehouse c = some (.ok a, v) ∧
      w' = { w.settle 0 .ok c with warehouse := v } := by
  obtain ⟨⟨r, v⟩, heffect, hw⟩ := Option.map_eq_some_iff.mp h
  cases hw
  exact ⟨v, heffect, rfl⟩

theorem lock_eq {k : Int} {u : Unit}
    (h : reportsStep w (.metric (.advisoryLock k)) = some (.ok u, w')) :
    w' = { w with
      warehouse := { w.warehouse with locks := w.warehouse.locks ++ [(0, k)] } } := by
  obtain ⟨v, heffect, rfl⟩ := step_warehouse h
  simp only [metricsEffect] at heffect
  split at heffect
  · cases heffect
  · split at heffect <;> cases heffect
    rfl

theorem cacheSet_eq {row : p.Row} {ttl : Nat} {u : Unit}
    (h : reportsStep w (.metric (.cacheSet p row ttl)) = some (.ok u, w')) :
    ttl ≠ 0 ∧ w' = { w with
      warehouse := { w.warehouse with
        cache := Function.update w.warehouse.cache p
          (some ⟨row, w.warehouse.clock + ttl * 1000⟩) } } := by
  obtain ⟨v, heffect, rfl⟩ := step_warehouse h
  simp only [metricsEffect] at heffect
  split at heffect <;> cases heffect
  exact ⟨‹_›, rfl⟩

theorem upsert_eq {insert update : p.Row} {u : Unit}
    (h : reportsStep w (.metric (.upsert p insert update)) = some (.ok u, w')) :
    ∃ insert' update', p.stored insert = some insert' ∧ p.stored update = some update' ∧
      w' = { w with warehouse := w.warehouse.upsert 0 p insert' update' } := by
  simp only [reportsStep, reports, Reports.metricExec] at h
  split at h
  · rename_i insert' update' hinsert hupdate
    obtain ⟨v, heffect, rfl⟩ := step_warehouse h
    simp only [metricsEffect] at heffect
    split at heffect
    · cases heffect
    · split at heffect <;> cases heffect
      exact ⟨insert', update', hinsert, hupdate, rfl⟩
  · cases h

theorem step_lock {k : Int} {u : Unit}
    (h : reportsStep w (.metric (.advisoryLock k)) = some (.ok u, w')) :
    w'.warehouse.events = w.warehouse.events ∧ w'.warehouse.clock = w.warehouse.clock := by
  rw [lock_eq h]
  exact ⟨rfl, rfl⟩

theorem step_countUsers {eventType : Option String} {n : Nat}
    (h : reportsStep w (.metric (.countUsers start stop eventType)) = some (.ok n, w')) :
    n = distinct (userIn start stop eventType) w.warehouse.events ∧ w' = w := by
  obtain ⟨v, heffect, rfl⟩ := step_warehouse h
  simp only [metricsEffect] at heffect
  split at heffect <;> cases heffect
  exact ⟨rfl, rfl⟩

theorem step_select {row : Option p.Row}
    (h : reportsStep w (.metric (.select p)) = some (.ok row, w')) :
    row = (w.warehouse.own? 0 p).or (w.warehouse.rows p) ∧ w' = w := by
  obtain ⟨v, heffect, rfl⟩ := step_warehouse h
  simp only [metricsEffect] at heffect
  split at heffect <;> cases heffect
  exact ⟨rfl, rfl⟩

theorem step_cacheGet {row : Option p.Row}
    (h : reportsStep w (.metric (.cacheGet p)) = some (.ok row, w')) :
    row = w.warehouse.cached? p ∧ w' = w := by
  cases h
  exact ⟨rfl, rfl⟩

theorem step_cacheSet {row : p.Row} {ttl : Nat} {u : Unit}
    (h : reportsStep w (.metric (.cacheSet p row ttl)) = some (.ok u, w')) :
    ttl ≠ 0 ∧ w'.warehouse.cache p = some ⟨row, w.warehouse.clock + ttl * 1000⟩ ∧
      w'.warehouse.written = w.warehouse.written ∧ w'.warehouse.clock = w.warehouse.clock := by
  obtain ⟨httl, rfl⟩ := cacheSet_eq h
  exact ⟨httl, Function.update_self .., rfl, rfl⟩

theorem step_upsert {insert update : p.Row} {u : Unit}
    (h : reportsStep w (.metric (.upsert p insert update)) = some (.ok u, w')) :
    ∃ row, (p.stored insert = some row ∨ p.stored update = some row) ∧
      w'.warehouse.own? 0 p = some row ∧ w'.warehouse.clock = w.warehouse.clock := by
  obtain ⟨insert', update', hinsert, hupdate, rfl⟩ := upsert_eq h
  refine ⟨_, ?_, Warehouse.own?_upsert_self insert' update', rfl⟩
  split
  · exact .inr hupdate
  · exact .inl hinsert

theorem step_cohort {users : List UUID}
    (h : reportsStep w (.cohort start stop) = some (.ok users, w')) :
    users = cohortOf w.warehouse.events start stop ∧ w' = w := by
  simp only [reportsStep, reports, reportsEffect] at h
  split at h <;> cases h
  exact ⟨rfl, rfl⟩

theorem step_countAmong {users : List UUID} {n : Nat}
    (h : reportsStep w (.countAmong users start stop) = some (.ok n, w')) :
    n = distinct (userAmong users start stop) w.warehouse.events ∧ w' = w := by
  simp only [reportsStep, reports, reportsEffect] at h
  split at h <;> cases h
  exact ⟨rfl, rfl⟩

theorem step_retentionGet {data : Option RetentionData}
    (h : reportsStep w (.retentionGet d) = some (.ok data, w')) :
    data = (w.retentionCache d).bind (fun c =>
      if w.warehouse.clock < c.2 then some c.1 else none) ∧ w' = w := by
  cases h
  exact ⟨rfl, rfl⟩

theorem step_selectRetention {row : Option RetentionRow}
    (h : reportsStep w (.selectRetention d) = some (.ok row, w')) :
    row = ((w.ownRetention? 0 d).or (w.retention d)).map RetentionColumns.load ∧ w' = w := by
  simp only [reportsStep, reports, reportsEffect] at h
  split at h <;> cases h
  exact ⟨rfl, rfl⟩

theorem step_upsertRetention {row : RetentionRow} {u : Unit}
    (h : reportsStep w (.upsertRetention d row) = some (.ok u, w')) :
    ∃ columns, row.store = some columns ∧ w'.ownRetention? 0 d = some columns ∧
      w'.warehouse.clock = w.warehouse.clock := by
  simp only [reportsStep, reports, reportsEffect] at h
  split at h
  · cases h
  · split at h
    · cases h
    · rename_i columns hstore
      split at h <;> cases h
      exact ⟨columns, hstore, by simp [Reports.ownRetention?], rfl⟩

theorem step_retentionSet {data : RetentionData} {ttl : Nat} {u : Unit}
    (h : reportsStep w (.retentionSet d data ttl) = some (.ok u, w')) :
    ttl ≠ 0 ∧ w'.retentionCache d = some (data, w.warehouse.clock + ttl * 1000) ∧
      w'.retentionWritten = w.retentionWritten ∧ w'.warehouse.clock = w.warehouse.clock := by
  simp only [reportsStep, reports, reportsEffect] at h
  split at h <;> cases h
  exact ⟨‹_›, Function.update_self .., rfl, rfl⟩

end Steps

/-- What a computation leaves to its commit. -/
structure Drafted (settings : Settings) (q : Query) (w w' : Reports) (fields : q.Fields) :
    Prop where
  clock : w'.warehouse.clock = w.warehouse.clock
  ttl : q.ttl settings ≠ 0
  cached : q.inCache w' = some (fields, w.warehouse.clock + q.ttl settings * 1000)
  pending : ∃ stored, q.pending w' = some stored ∧
    (stored = fields ↔ FourPlaces w.warehouse.events q)

theorem stored_dau {d : Day} {row row' : DauRow} (h : (Period.dau d).stored row = some row') :
    row' = row := by
  obtain ⟨value, hvalue, hrow⟩ := Option.bind_eq_some_iff.mp h
  cases hrow
  rw [Numeric.floor_store hvalue]

theorem stored_funnel {a b : Day} {row row' : FunnelRow}
    (h : (Period.funnel a b).stored row = some row') : row' = row := by
  obtain ⟨view, hview, h⟩ := Option.bind_eq_some_iff.mp h
  obtain ⟨search, hsearch, h⟩ := Option.bind_eq_some_iff.mp h
  obtain ⟨cart, hcart, h⟩ := Option.bind_eq_some_iff.mp h
  obtain ⟨order, horder, h⟩ := Option.bind_eq_some_iff.mp h
  cases h
  rw [Int4.value_store hview, Int4.value_store hsearch, Int4.value_store hcart,
    Int4.value_store horder]

theorem computeDau_writes {d : Day} {dau : Nat}
    (h : (inReports (computeDau settings d)).run reportsStep w = some (.ok dau, w')) :
    dau = distinct (userIn (midnight d) (midnight (d + 1)) none) w.warehouse.events ∧
      ∃ insert update cached w₁ w₂ u u',
        w₁.warehouse.clock = w.warehouse.clock ∧
        insert.value = dau ∧ update.value = dau ∧ cached.value = dau ∧
        reportsStep w₁ (.metric (.upsert (.dau d) insert update)) = some (.ok u, w₂) ∧
        reportsStep w₂ (.metric (.cacheSet (.dau d) cached settings.cacheTtlDau)) =
          some (.ok u', w') := by
  simp only [computeDau, inReports_bind] at h
  obtain ⟨u, w₁, hlock, h⟩ := run_ask h
  obtain ⟨n, w₂, hcount, h⟩ := run_ask h
  obtain ⟨insertedAt, w₃, hinserted, h⟩ := run_ask h
  obtain ⟨updatedAt, w₄, hupdated, h⟩ := run_ask h
  obtain ⟨u', w₅, hupsert, h⟩ := run_ask h
  obtain ⟨cachedAt, w₆, hcachedAt, h⟩ := run_ask h
  obtain ⟨u'', w₇, hset, h⟩ := run_ask h
  cases h
  obtain ⟨hevents, hclock⟩ := step_lock hlock
  obtain ⟨hdau, rfl⟩ := step_countUsers hcount
  obtain ⟨-, rfl⟩ := step_now hinserted
  obtain ⟨-, rfl⟩ := step_now hupdated
  obtain ⟨-, rfl⟩ := step_now hcachedAt
  rw [hevents] at hdau
  exact ⟨hdau, _, _, _, _, _, u', u'', hclock, rfl, rfl, rfl, hupsert, hset⟩

theorem drafted_dau {d : Day} {dau : Nat}
    (h : (inReports (computeDau settings d)).run reportsStep w = some (.ok dau, w')) :
    Drafted settings (.dau d) w w' dau := by
  obtain ⟨-, insert, update, cached, w₁, w₂, u, u', hclock, hinsert, hupdate, hcached, hupsert,
    hset⟩ := computeDau_writes h
  obtain ⟨row, hstored, hown, hclock'⟩ := step_upsert hupsert
  obtain ⟨httl, hcache, hwritten, hclock''⟩ := step_cacheSet hset
  rw [hclock', hclock] at hcache hclock''
  have hrow : row.value = dau := by
    rcases hstored with hstored | hstored
    · rw [stored_dau hstored, hinsert]
    · rw [stored_dau hstored, hupdate]
  refine ⟨hclock'', httl, ?_, dau, ?_, iff_of_true rfl trivial⟩
  · rw [Query.inCache, hcache, ← hcached]
    rfl
  · rw [Query.pending, Warehouse.own?_congr hwritten, hown, Option.map_some, hrow]

theorem computeFunnel_writes {a b : Day} {snap : FunnelRow}
    (h : (inReports (computeFunnel settings a b)).run reportsStep w = some (.ok snap, w')) :
    countsOf (.funnel a b) snap = exactCounts (.funnel a b) w.warehouse.events ∧
      ∃ w₁ w₂ u u', w₁.warehouse.clock = w.warehouse.clock ∧
        reportsStep w₁ (.metric (.upsert (.funnel a b) snap snap)) = some (.ok u, w₂) ∧
        reportsStep w₂ (.metric (.cacheSet (.funnel a b) snap settings.cacheTtlFunnel)) =
          some (.ok u', w') := by
  simp only [computeFunnel, inReports_bind] at h
  obtain ⟨u, w₁, hlock, h⟩ := run_ask h
  obtain ⟨view, w₂, hview, h⟩ := run_ask h
  obtain ⟨search, w₃, hsearch, h⟩ := run_ask h
  obtain ⟨cart, w₄, hcart, h⟩ := run_ask h
  obtain ⟨order, w₅, horder, h⟩ := run_ask h
  obtain ⟨computedAt, w₆, hcomputedAt, h⟩ := run_ask h
  obtain ⟨u', w₇, hupsert, h⟩ := run_ask h
  obtain ⟨u'', w₈, hset, h⟩ := run_ask h
  cases h
  obtain ⟨hevents, hclock⟩ := step_lock hlock
  obtain ⟨rfl, rfl⟩ := step_countUsers hview
  obtain ⟨rfl, rfl⟩ := step_countUsers hsearch
  obtain ⟨rfl, rfl⟩ := step_countUsers hcart
  obtain ⟨rfl, rfl⟩ := step_countUsers horder
  obtain ⟨-, rfl⟩ := step_now hcomputedAt
  refine ⟨?_, _, _, u', u'', hclock, hupsert, hset⟩
  rw [← hevents]
  rfl

theorem drafted_funnel {a b : Day} {snap : FunnelRow}
    (h : (inReports (computeFunnel settings a b)).run reportsStep w = some (.ok snap, w')) :
    Drafted settings (.funnel a b) w w' (funnelToResponse a b snap .computed).steps := by
  obtain ⟨-, w₁, w₂, u, u', hclock, hupsert, hset⟩ := computeFunnel_writes h
  obtain ⟨row, hstored, hown, hclock'⟩ := step_upsert hupsert
  obtain ⟨httl, hcache, hwritten, hclock''⟩ := step_cacheSet hset
  rw [hclock', hclock] at hcache hclock''
  have hrow : row = snap := by
    rcases hstored with hstored | hstored <;> exact stored_funnel hstored
  refine ⟨hclock'', httl, ?_, _, ?_, iff_of_true rfl trivial⟩
  · rw [Query.inCache, hcache]
    rfl
  · rw [Query.pending, Warehouse.own?_congr hwritten, hown, Option.map_some, hrow]
    rfl

theorem retainedAmong_le (users : List UUID) (start stop : Int) (events : List EventRow) :
    distinct (userAmong users start stop) events ≤ users.length := by
  have hsub : values (userAmong users start stop) events ⊆ users.toFinset := by
    intro u hu
    obtain ⟨row, -, hrow⟩ := mem_values.mp hu
    obtain ⟨-, hmem⟩ := Option.filter_eq_some_iff.mp hrow
    exact List.mem_toFinset.mpr (of_decide_eq_true hmem)
  exact (Finset.card_le_card hsub).trans (List.toFinset_card_le users)

theorem rate_stored_iff {retained cohortSize : Nat} {x : Numeric 8 4}
    (hle : retained ≤ cohortSize) (hsize : cohortSize < 2147483648)
    (hstore : Numeric.store 8 4 (rate retained cohortSize) = some x) :
    x.decimal.value = (rate retained cohortSize).value ↔ cohortSize ∣ retained * 10000 := by
  rw [Numeric.store_value_iff hstore]
  unfold rate
  split
  · rename_i hzero
    subst hzero
    have hnone : retained = 0 := by omega
    subst hnone
    exact iff_of_true ⟨0, by simp [Decimal.value]⟩ (dvd_refl 0)
  · exact Decimal.div_places_iff hle (by omega) (by omega)

theorem store_retention {row : RetentionRow} {columns : RetentionColumns}
    (h : row.store = some columns) :
    Int4.store row.cohortSize = some columns.cohortSize ∧
      columns.load.cohortSize = row.cohortSize ∧ columns.load.d1Retained = row.d1Retained ∧
      columns.load.d7Retained = row.d7Retained ∧
      Numeric.store 8 4 row.d1Rate = some columns.d1Rate ∧
      Numeric.store 8 4 row.d7Rate = some columns.d7Rate := by
  obtain ⟨cohortSize, hcohortSize, h⟩ := Option.bind_eq_some_iff.mp h
  obtain ⟨d1Retained, hd1Retained, h⟩ := Option.bind_eq_some_iff.mp h
  obtain ⟨d7Retained, hd7Retained, h⟩ := Option.bind_eq_some_iff.mp h
  obtain ⟨d1Rate, hd1Rate, h⟩ := Option.bind_eq_some_iff.mp h
  obtain ⟨d7Rate, hd7Rate, h⟩ := Option.bind_eq_some_iff.mp h
  cases h
  exact ⟨hcohortSize, Int4.value_store hcohortSize, Int4.value_store hd1Retained,
    Int4.value_store hd7Retained, hd1Rate, hd7Rate⟩

theorem run_retainedOf {d : Day} {users : List UUID} {retained : Nat × Nat}
    (h : (retainedOf d users).run reportsStep w = some (.ok retained, w'))
    (husers : users = cohortOf w.warehouse.events (midnight d) (midnight (d + 1))) :
    (users.length, retained) = retentionCounts w.warehouse.events d ∧ w' = w := by
  unfold retainedOf at h
  unfold retentionCounts
  simp only [← husers]
  split at h
  · rename_i hnone
    cases h
    rw [if_pos hnone, hnone]
    exact ⟨rfl, rfl⟩
  · rename_i hsome
    obtain ⟨d1, w₁, hd1, h⟩ := run_query h
    obtain ⟨d7, w₂, hd7, h⟩ := run_query h
    cases h
    obtain ⟨rfl, rfl⟩ := step_countAmong hd1
    obtain ⟨rfl, rfl⟩ := step_countAmong hd7
    rw [if_neg hsome]
    exact ⟨rfl, rfl⟩

theorem retentionCounts_le (events : List EventRow) (d : Day) :
    (retentionCounts events d).2.1 ≤ (retentionCounts events d).1 ∧
      (retentionCounts events d).2.2 ≤ (retentionCounts events d).1 := by
  unfold retentionCounts
  simp only
  split
  · exact ⟨le_rfl, le_rfl⟩
  · exact ⟨retainedAmong_le _ _ _ _, retainedAmong_le _ _ _ _⟩

theorem store_retention_iff {cohortSize d1 d7 now : Nat} {columns : RetentionColumns}
    (h : RetentionRow.store ⟨cohortSize, d1, d7, rate d1 cohortSize, rate d7 cohortSize, now⟩ =
      some columns) (hd1 : d1 ≤ cohortSize) (hd7 : d7 ≤ cohortSize) :
    retentionFields columns.load =
        retentionFields ⟨cohortSize, d1, d7, rate d1 cohortSize, rate d7 cohortSize, now⟩ ↔
      cohortSize ∣ d1 * 10000 ∧ cohortSize ∣ d7 * 10000 := by
  obtain ⟨hsize, hc, h1, h7, hrate1, hrate7⟩ := store_retention h
  have hfits := columns.cohortSize.fits
  rw [Int4.value_store hsize] at hfits
  rw [← rate_stored_iff hd1 hfits hrate1, ← rate_stored_iff hd7 hfits hrate7]
  unfold retentionFields
  rw [hc, h1, h7]
  simp [RetentionColumns.load]

theorem run_addDays {d : Day} {n : Nat} {f : Day → ReportApp β} {b : β}
    (h : (Prog.ofExcept (addDays d n) >>= f).run reportsStep w = some (.ok b, w')) :
    d + n ≤ dateMax ∧ (f (d + n)).run reportsStep w = some (.ok b, w') := by
  by_cases hle : d + n ≤ dateMax
  · rw [addDays, if_pos hle] at h
    exact ⟨hle, h⟩
  · rw [addDays, if_neg hle] at h
    cases h

theorem computeRetention_writes {d : Day} {snap : RetentionRow}
    (h : (computeRetention settings d).run reportsStep w = some (.ok snap, w')) :
    ∃ cohortSize d1 d7 now,
      snap = ⟨cohortSize, d1, d7, rate d1 cohortSize, rate d7 cohortSize, now⟩ ∧
      (cohortSize, d1, d7) = retentionCounts w.warehouse.events d ∧
      ∃ w₁ w₂ u u', w₁.warehouse.clock = w.warehouse.clock ∧
        reportsStep w₁ (.upsertRetention d snap) = some (.ok u, w₂) ∧
        reportsStep w₂ (.retentionSet d ⟨cohortSize, d1, d7, (rate d1 cohortSize).str,
          (rate d7 cohortSize).str, now⟩ settings.cacheTtlRetention) = some (.ok u', w') := by
  obtain ⟨u, w₁, hlock, h⟩ := run_query h
  obtain ⟨-, h⟩ := run_addDays h
  obtain ⟨users, w₂, hcohort, h⟩ := run_query h
  obtain ⟨⟨d1, d7⟩, w₃, hretained, h⟩ := Prog.run_bind_inv h
  obtain ⟨now, w₄, hnow, h⟩ := run_query h
  obtain ⟨u', w₅, hupsert, h⟩ := run_query h
  obtain ⟨u'', w₆, hset, h⟩ := run_query h
  cases h
  obtain ⟨hevents, hclock⟩ := step_lock hlock
  obtain ⟨husers, rfl⟩ := step_cohort hcohort
  obtain ⟨hcounts, rfl⟩ := run_retainedOf hretained husers
  obtain ⟨-, rfl⟩ := step_now hnow
  rw [hevents] at hcounts
  exact ⟨_, _, _, now, rfl, hcounts, _, _, u', u'', hclock, hupsert, hset⟩

theorem drafted_retention {d : Day} {snap : RetentionRow}
    (h : (computeRetention settings d).run reportsStep w = some (.ok snap, w')) :
    Drafted settings (.retention d) w w' (retentionFields snap) := by
  obtain ⟨cohortSize, d1, d7, now, rfl, hcounts, w₁, w₂, u, u', hclock, hupsert, hset⟩ :=
    computeRetention_writes h
  obtain ⟨columns, hstore, hown, hclock'⟩ := step_upsertRetention hupsert
  obtain ⟨httl, hcache, hwritten, hclock''⟩ := step_retentionSet hset
  rw [hclock', hclock] at hcache hclock''
  have hle := retentionCounts_le w.warehouse.events d
  rw [← hcounts] at hle
  refine ⟨hclock'', httl, ?_, retentionFields columns.load, ?_, ?_⟩
  · rw [Query.inCache, hcache]
    simp [retentionFields, Query.ttl]
  · have hpending : w'.ownRetention? 0 d = some columns := by
      rw [← hown, Reports.ownRetention?, Reports.ownRetention?, hwritten]
    rw [Query.pending, hpending]
    rfl
  · rw [store_retention_iff hstore hle.1 hle.2, FourPlaces, ← hcounts]

theorem run_pure {source source' : Source} {b b' : β}
    (h : (pure (source, b) : ReportApp (Source × β)).run reportsStep w =
      some (.ok (source', b'), w')) : source = source' ∧ b = b' ∧ w = w' := by
  simpa [Prog.run, and_assoc] using h

/-- A read of the daily users is served from the cache, or from the row, which fills the
cache, or it computes them. -/
theorem getDau_cases {d : Day} {r : DAUResponse}
    (h : (inReports (getDau settings (some d))).run reportsStep w = some (.ok r, w')) :
    (r.source = .cache ∧ (w.warehouse.cached? (.dau d)).isSome ∧ w' = w) ∨
    (r.source = .database ∧ ∃ row u,
      (w.warehouse.own? 0 (.dau d)).or (w.warehouse.rows (.dau d)) = some row ∧
      reportsStep w (.metric (.cacheSet (.dau d) row settings.cacheTtlDau)) = some (.ok u, w')) ∨
    (r.source = .computed ∧ w.warehouse.cached? (.dau d) = none ∧
      (w.warehouse.own? 0 (.dau d)).or (w.warehouse.rows (.dau d)) = none ∧
      (inReports (computeDau settings d)).run reportsStep w = some (.ok r.dau, w')) := by
  simp only [getDau, Prog.pure_eq, Prog.ret_bind, inReports_bind] at h
  obtain ⟨cached, w₁, hcached, h⟩ := run_ask h
  obtain ⟨rfl, rfl⟩ := step_cacheGet hcached
  cases hcache : w₁.warehouse.cached? (.dau d) with
  | some data =>
      simp only [hcache] at h
      cases h
      exact .inl ⟨rfl, rfl, rfl⟩
  | none =>
      simp only [hcache, inReports_bind] at h
      obtain ⟨found, w₂, hfound, h⟩ := run_ask h
      obtain ⟨rfl, rfl⟩ := step_select hfound
      cases hrow : (w₂.warehouse.own? 0 (.dau d)).or (w₂.warehouse.rows (.dau d)) with
      | some row =>
          simp only [hrow, inReports_bind] at h
          obtain ⟨u, w₃, hset, h⟩ := run_ask h
          cases h
          exact .inr (.inl ⟨rfl, row, u, rfl, hset⟩)
      | none =>
          simp only [hrow, inReports_bind] at h
          obtain ⟨dau, w₃, hcompute, h⟩ := Prog.run_bind_inv h
          obtain ⟨now, w₄, hnow, h⟩ := run_ask h
          obtain ⟨-, rfl⟩ := step_now hnow
          cases h
          exact .inr (.inr ⟨rfl, rfl, rfl, hcompute⟩)

theorem getFunnel_cases {a b : Day} {r : FunnelResponse}
    (h : (inReports (getFunnel settings (some a) (some b))).run reportsStep w =
      some (.ok r, w')) :
    (r.source = .cache ∧ (w.warehouse.cached? (.funnel a b)).isSome ∧ w' = w) ∨
    (r.source = .database ∧
      ((w.warehouse.own? 0 (.funnel a b)).or (w.warehouse.rows (.funnel a b))).isSome ∧ w' = w) ∨
    (r.source = .computed ∧ w.warehouse.cached? (.funnel a b) = none ∧
      (w.warehouse.own? 0 (.funnel a b)).or (w.warehouse.rows (.funnel a b)) = none ∧
      ∃ snap, r = funnelToResponse a b snap .computed ∧
        (inReports (computeFunnel settings a b)).run reportsStep w = some (.ok snap, w')) := by
  simp only [getFunnel, inReports_bind, Option.getD_some] at h
  obtain ⟨now, w₁, hnow, h⟩ := run_ask h
  obtain ⟨cached, w₂, hcached, h⟩ := run_ask h
  obtain ⟨-, rfl⟩ := step_now hnow
  obtain ⟨rfl, rfl⟩ := step_cacheGet hcached
  cases hcache : w₂.warehouse.cached? (.funnel a b) with
  | some data =>
      simp only [hcache] at h
      cases h
      exact .inl ⟨rfl, rfl, rfl⟩
  | none =>
      simp only [hcache, inReports_bind] at h
      obtain ⟨found, w₃, hfound, h⟩ := run_ask h
      obtain ⟨rfl, rfl⟩ := step_select hfound
      cases hrow : (w₃.warehouse.own? 0 (.funnel a b)).or (w₃.warehouse.rows (.funnel a b)) with
      | some row =>
          simp only [hrow] at h
          cases h
          exact .inr (.inl ⟨rfl, rfl, rfl⟩)
      | none =>
          simp only [hrow, inReports_bind] at h
          obtain ⟨snap, w₄, hcompute, h⟩ := Prog.run_bind_inv h
          cases h
          exact .inr (.inr ⟨rfl, rfl, rfl, snap, rfl, hcompute⟩)

theorem getRetention_computed {d : Day} {r : RetentionResponse}
    (h : (getRetention settings (some d)).run reportsStep w = some (.ok r, w'))
    (hsource : r.source = .computed) :
    ∃ snap, r = .ofRow d snap .computed ∧
      (computeRetention settings d).run reportsStep w = some (.ok snap, w') := by
  obtain ⟨now, w₁, hnow, h⟩ := run_query h
  obtain ⟨cached, w₂, hcached, h⟩ := run_query h
  cases cached with
  | some data =>
      cases h
      cases hsource
  | none =>
      obtain ⟨found, w₃, hfound, h⟩ := run_query h
      cases found with
      | some row =>
          cases h
          cases hsource
      | none =>
          obtain ⟨snap, w₄, hcompute, h⟩ := Prog.run_bind_inv h
          cases h
          obtain ⟨-, rfl⟩ := step_now hnow
          obtain ⟨-, rfl⟩ := step_retentionGet hcached
          obtain ⟨-, rfl⟩ := step_selectRetention hfound
          exact ⟨snap, rfl, hcompute⟩

theorem drafted_serve {q : Query} {fields : q.Fields}
    (h : (q.serve settings).run reportsStep w = some (.ok (.computed, fields), w')) :
    Drafted settings q w w' fields := by
  cases q with
  | dau d =>
      obtain ⟨r, w₁, hget, hr⟩ := Prog.run_bind_inv h
      obtain ⟨hsource, rfl, rfl⟩ := run_pure hr
      rcases getDau_cases hget with ⟨hcache, -⟩ | ⟨hdatabase, -⟩ | ⟨-, -, -, hcompute⟩
      · cases hsource.symm.trans hcache
      · cases hsource.symm.trans hdatabase
      · exact drafted_dau hcompute
  | funnel a b =>
      obtain ⟨r, w₁, hget, hr⟩ := Prog.run_bind_inv h
      obtain ⟨hsource, rfl, rfl⟩ := run_pure hr
      rcases getFunnel_cases hget with
        ⟨hcache, -⟩ | ⟨hdatabase, -⟩ | ⟨-, -, -, snap, rfl, hcompute⟩
      · cases hsource.symm.trans hcache
      · cases hsource.symm.trans hdatabase
      · exact drafted_funnel hcompute
  | retention d =>
      obtain ⟨r, w₁, hget, hr⟩ := Prog.run_bind_inv h
      obtain ⟨hsource, rfl, rfl⟩ := run_pure hr
      obtain ⟨snap, rfl, hcompute⟩ := getRetention_computed hget hsource
      exact drafted_retention hcompute

section Served

variable {q : Query} {fields fields' : q.Fields} {expiry : Nat}

theorem run_query_ok {c : ReportCmd} {p : c.Resp → ReportApp β} {a : c.Resp}
    (h : reportsStep w c = some (.ok a, w')) :
    (query c >>= p).run reportsStep w = (p a).run reportsStep w' :=
  Prog.run_perform_ok h

theorem run_ask_ok {c : MetricsCmd} {p : c.Resp → ReportApp β} {a : c.Resp}
    (h : reportsStep w (.metric c) = some (.ok a, w')) :
    (inReports (ask c) >>= p).run reportsStep w = (p a).run reportsStep w' := by
  rw [inReports_ask]
  exact run_query_ok h

theorem now_ok : reportsStep w (.metric .now) = some (.ok w.warehouse.clock, w) := rfl

theorem commit_ok : ∃ w', reportsStep w (.metric .commit) = some (.ok (), w') := ⟨_, rfl⟩

theorem rollback_ok : ∃ w', reportsStep w (.metric .rollback) = some (.ok (), w') := ⟨_, rfl⟩

theorem cacheGet_ok (p : Period) :
    reportsStep w (.metric (.cacheGet p)) = some (.ok (w.warehouse.cached? p), w) := rfl

theorem select_ok (p : Period) (haborted : w.warehouse.aborted 0 = false) :
    reportsStep w (.metric (.select p)) =
      some (.ok ((w.warehouse.own? 0 p).or (w.warehouse.rows p)), w) := by
  change (metricsEffect 0 w.warehouse (.select p)).map _ = _
  simp only [metricsEffect, haborted]
  rfl

theorem cacheSet_ok {p : Period} {ttl : Nat} (httl : ttl ≠ 0) (row : p.Row) :
    ∃ w', reportsStep w (.metric (.cacheSet p row ttl)) = some (.ok (), w') := by
  have heffect : metricsEffect 0 w.warehouse (.cacheSet p row ttl) = some (.ok (),
      { w.warehouse with
        cache := Function.update w.warehouse.cache p
          (some ⟨row, w.warehouse.clock + ttl * 1000⟩) }) := if_neg httl
  exact ⟨_, congrArg (Option.map _) heffect⟩

theorem retentionGet_ok (d : Day) :
    reportsStep w (.retentionGet d) = some (.ok ((w.retentionCache d).bind fun c =>
      if w.warehouse.clock < c.2 then some c.1 else none), w) := rfl

theorem selectRetention_ok (d : Day) (haborted : w.warehouse.aborted 0 = false) :
    reportsStep w (.selectRetention d) = some
      (.ok (((w.ownRetention? 0 d).or (w.retention d)).map RetentionColumns.load), w) := by
  simp only [reportsStep, reports, reportsEffect, haborted]
  rfl

theorem run_request_ok {handler : ReportApp α} {a : α}
    (h : handler.run reportsStep w = some (.ok a, w')) :
    ∃ w₁, (reportsRequest handler).run reportsStep w = some (.ok a, w₁) := by
  obtain ⟨w₁, hcommit⟩ := commit_ok (w := w')
  obtain ⟨w₂, hrollback⟩ := rollback_ok (w := w₁)
  have hbody : (handler >>= fun a => query (.metric .commit) >>= fun _ => pure a).run
      reportsStep w = some (.ok a, w₁) := by
    rw [Prog.run_bind_ok h, run_query_ok hcommit]
    rfl
  refine ⟨w₂, ?_⟩
  unfold reportsRequest getDb withSession
  rw [Prog.run_bind_ok (Prog.run_tryExcept_ok hbody), run_query_ok hrollback]
  rfl

theorem served_cache (settings : Settings) (hcache : q.inCache w = some (fields, expiry))
    (hfresh : w.warehouse.clock < expiry) :
    ∃ w₁, (q.serve settings).run reportsStep w = some (.ok (.cache, fields), w₁) := by
  cases q with
  | dau d =>
      obtain ⟨c, hc, hfields⟩ := Option.map_eq_some_iff.mp hcache
      cases hfields
      have hcached : w.warehouse.cached? (.dau d) = some c.row :=
        Warehouse.cached?_of_lt hc hfresh
      have hget : (inReports (getDau settings (some d))).run reportsStep w =
          some (.ok ⟨d, c.row.value, .cache, some c.row.computedAt⟩, w) := by
        simp only [getDau, Prog.pure_eq, Prog.ret_bind, inReports_bind]
        rw [run_ask_ok (cacheGet_ok _), hcached]
        rfl
      exact ⟨w, Prog.run_bind_ok hget⟩
  | funnel a b =>
      obtain ⟨c, hc, hfields⟩ := Option.map_eq_some_iff.mp hcache
      cases hfields
      have hcached : w.warehouse.cached? (.funnel a b) = some c.row :=
        Warehouse.cached?_of_lt hc hfresh
      have hget : (inReports (getFunnel settings (some a) (some b))).run reportsStep w =
          some (.ok (funnelToResponse a b c.row .cache), w) := by
        simp only [getFunnel, inReports_bind, Option.getD_some]
        rw [run_ask_ok now_ok, run_ask_ok (cacheGet_ok _), hcached]
        rfl
      exact ⟨w, Prog.run_bind_ok hget⟩
  | retention d =>
      obtain ⟨c, hc, hfields⟩ := Option.map_eq_some_iff.mp hcache
      cases hfields
      have hget : (getRetention settings (some d)).run reportsStep w =
          some (.ok (.ofData d c.1), w) := by
        unfold getRetention
        rw [run_query_ok now_ok]
        simp only [Option.getD_some]
        rw [run_query_ok (retentionGet_ok _), hc]
        simp only [Option.bind_some, hfresh, if_true]
        rfl
      exact ⟨w, Prog.run_bind_ok hget⟩

/-- The session has nothing in progress. -/
structure Idle (w : Reports) : Prop where
  aborted : w.warehouse.aborted 0 = false
  own : ∀ p, w.warehouse.own? 0 p = none
  ownRetention : ∀ d, w.ownRetention? 0 d = none

theorem served_database (hidle : Idle w) (httl : q.ttl settings ≠ 0)
    (hcache : q.inCache w = some (fields', expiry)) (hexpired : expiry ≤ w.warehouse.clock)
    (hrow : q.inDatabase w = some fields) :
    ∃ w₁, (q.serve settings).run reportsStep w = some (.ok (.database, fields), w₁) := by
  cases q with
  | dau d =>
      obtain ⟨c, hc, hfields⟩ := Option.map_eq_some_iff.mp hcache
      cases hfields
      obtain ⟨row, hstored, rfl⟩ := Option.map_eq_some_iff.mp hrow
      have hcached : w.warehouse.cached? (.dau d) = none :=
        Warehouse.cached?_of_le hc hexpired
      obtain ⟨w₁, hset⟩ := cacheSet_ok (w := w) (p := .dau d) httl row
      simp only [Query.ttl] at hset
      have hget : (inReports (getDau settings (some d))).run reportsStep w =
          some (.ok ⟨d, row.value, .database, some row.computedAt⟩, w₁) := by
        simp only [getDau, Prog.pure_eq, Prog.ret_bind, inReports_bind]
        rw [run_ask_ok (cacheGet_ok _), hcached]
        simp only [inReports_bind]
        rw [run_ask_ok (select_ok _ hidle.aborted), hidle.own, Option.none_or, hstored]
        simp only [inReports_bind]
        rw [run_ask_ok hset]
        rfl
      exact ⟨w₁, Prog.run_bind_ok hget⟩
  | funnel a b =>
      obtain ⟨c, hc, hfields⟩ := Option.map_eq_some_iff.mp hcache
      cases hfields
      obtain ⟨row, hstored, rfl⟩ := Option.map_eq_some_iff.mp hrow
      have hcached : w.warehouse.cached? (.funnel a b) = none :=
        Warehouse.cached?_of_le hc hexpired
      have hget : (inReports (getFunnel settings (some a) (some b))).run reportsStep w =
          some (.ok (funnelToResponse a b row .database), w) := by
        simp only [getFunnel, inReports_bind, Option.getD_some]
        rw [run_ask_ok now_ok, run_ask_ok (cacheGet_ok _), hcached]
        simp only [inReports_bind]
        rw [run_ask_ok (select_ok _ hidle.aborted), hidle.own, Option.none_or, hstored]
        rfl
      exact ⟨w, Prog.run_bind_ok hget⟩
  | retention d =>
      obtain ⟨c, hc, hfields⟩ := Option.map_eq_some_iff.mp hcache
      cases hfields
      obtain ⟨columns, hcolumns, rfl⟩ := Option.map_eq_some_iff.mp hrow
      have hget : (getRetention settings (some d)).run reportsStep w =
          some (.ok (.ofRow d columns.load .database), w) := by
        unfold getRetention
        rw [run_query_ok now_ok]
        simp only [Option.getD_some]
        rw [run_query_ok (retentionGet_ok _), hc]
        simp only [Option.bind_some, Nat.not_lt.mpr hexpired, if_false]
        rw [run_query_ok (selectRetention_ok _ hidle.aborted), hidle.ownRetention,
          Option.none_or, hcolumns]
        rfl
      exact ⟨w, Prog.run_bind_ok hget⟩

end Served

section Committed

variable {q : Query} {fields : q.Fields}

/-- A request that has computed a metric leaves what it has written to the others. -/
structure Published (settings : Settings) (q : Query) (w w' : Reports) (fields : q.Fields) :
    Prop where
  idle : Idle w'
  ttl : q.ttl settings ≠ 0
  cached : q.inCache w' = some (fields, w.warehouse.clock + q.ttl settings * 1000)
  stored : ∃ stored, q.inDatabase w' = some stored ∧
    (stored = fields ↔ FourPlaces w.warehouse.events q)

theorem published_request
    (hrun : q.request settings w = some (.ok (.computed, fields), w')) :
    Published settings q w w' fields := by
  obtain ⟨w₁, hserve, rfl⟩ := run_request hrun
  have hdraft := drafted_serve hserve
  refine ⟨⟨?_, fun p => ?_, fun d => ?_⟩, hdraft.ttl, ?_, ?_⟩
  · simp [Warehouse.rollbackTx, setAt]
  · apply Warehouse.own?_dropped_self (w := w₁.warehouse.commitTx 0)
    rfl
  · simp +contextual [Reports.ownRetention?, Reports.commitRetention, Reports.dropRetention]
  · rw [← hdraft.cached]
    cases q <;> rfl
  · obtain ⟨stored, hpending, hstored⟩ := hdraft.pending
    refine ⟨stored, ?_, hstored⟩
    cases q with
    | dau d =>
        obtain ⟨row, hown, rfl⟩ := Option.map_eq_some_iff.mp hpending
        simp [Query.inDatabase, Warehouse.rollbackTx, Warehouse.commitTx, hown]
    | funnel a b =>
        obtain ⟨row, hown, rfl⟩ := Option.map_eq_some_iff.mp hpending
        simp [Query.inDatabase, Warehouse.rollbackTx, Warehouse.commitTx, hown]
    | retention d =>
        obtain ⟨columns, hown, rfl⟩ := Option.map_eq_some_iff.mp hpending
        simp [Query.inDatabase, Reports.commitRetention, hown]

theorem Published.later {w₁ w₂ : Reports} (h : Published settings q w w₁ fields)
    (hlater : Later w₁ w₂) : Published settings q w w₂ fields := by
  refine ⟨⟨?_, fun p => ?_, fun d => ?_⟩, h.ttl, ?_, ?_⟩
  · rw [hlater.aborted, h.idle.aborted]
  · rw [Warehouse.own?_congr hlater.written, h.idle.own]
  · rw [← h.idle.ownRetention d, Reports.ownRetention?, Reports.ownRetention?,
      hlater.retentionWritten]
  · rw [← h.cached]
    cases q <;> simp only [Query.inCache, hlater.cache, hlater.retentionCache]
  · obtain ⟨stored, hstored, hiff⟩ := h.stored
    refine ⟨stored, ?_, hiff⟩
    rw [← hstored]
    cases q <;> simp only [Query.inDatabase, hlater.rows, hlater.retention]

/-- Where a metric that was computed at a time is read from later. -/
def sourceAt (settings : Settings) (q : Query) (computed now : Nat) : Source :=
  if now < computed + q.ttl settings * 1000 then .cache else .database

/-- A metric is the same from every source, however much later it is read, if and only
if its rates have four places. -/
theorem sources_agree_iff
    (hrun : q.request settings w = some (.ok (.computed, fields), w')) :
    (∀ es w₁, elapse es w' = some w₁ →
        ∃ w₂, q.request settings w₁ =
          some (.ok (sourceAt settings q w.warehouse.clock w₁.warehouse.clock, fields), w₂)) ↔
      FourPlaces w.warehouse.events q := by
  have hpublished := published_request hrun
  constructor
  · intro hsame
    let expired : Reports := { w' with
      warehouse := { w'.warehouse with
        clock := w'.warehouse.clock + (w.warehouse.clock + q.ttl settings * 1000) } }
    have helapse : elapse
        [.metric (.tick (w.warehouse.clock + q.ttl settings * 1000))] w' = some expired := rfl
    have hlate : w.warehouse.clock + q.ttl settings * 1000 ≤ expired.warehouse.clock :=
      Nat.le_add_left ..
    have hlater := hpublished.later (later_elapse helapse)
    obtain ⟨stored, hstored, hiff⟩ := hlater.stored
    obtain ⟨w₁, hserve⟩ := served_database hlater.idle hlater.ttl hlater.cached hlate hstored
    obtain ⟨w₂, hserved⟩ : ∃ w₂, q.request settings expired =
        some (.ok (.database, stored), w₂) := run_request_ok hserve
    obtain ⟨w₃, hagain⟩ := hsame _ _ helapse
    rw [sourceAt, if_neg (Nat.not_lt.mpr hlate), hserved] at hagain
    simp only [Option.some.injEq, Prod.mk.injEq, Except.ok.injEq, true_and] at hagain
    exact hiff.mp hagain.1
  · intro hplaces es w₁ helapse
    have hlater := hpublished.later (later_elapse helapse)
    obtain ⟨stored, hstored, hiff⟩ := hlater.stored
    rw [hiff.mpr hplaces] at hstored
    unfold sourceAt
    split
    · rename_i hfresh
      obtain ⟨w₂, hserve⟩ := served_cache settings hlater.cached hfresh
      exact run_request_ok hserve
    · rename_i hexpired
      obtain ⟨w₂, hserve⟩ := served_database hlater.idle hlater.ttl hlater.cached
        (Nat.not_lt.mp hexpired) hstored
      exact run_request_ok hserve

end Committed

end Runs

/-- So many users of the cohort of day 0 that all come back on the seventh day, and one
of them on the first. -/
def comeback (cohortSize : Nat) : Reports where
  warehouse := ⟨0, (List.range cohortSize).flatMap (fun u =>
      [visit u 0, visit u (7 * 86400000)]) ++ [visit 0 86400000],
    fun _ => none, fun _ => none, [], [], fun _ => false⟩
  retention _ := none
  retentionCache _ := none
  retentionWritten := []
  epmCache := none
  visitors _ := 0
where
  visit (u ts : Nat) : EventRow := ⟨u, some u, .null, .null, .null, none, ts, .null, .null⟩

/-- Of three users one is a third, to 28 digits when it is computed and to four when it is
read back. -/
theorem third_read_back :
    let request := Query.request {} (.retention 0)
    let computed := request (comeback 3)
    let expired := computed.bind fun rw => elapse [.metric (.tick 600000)] rw.2
    computed.map Prod.fst =
        some (.ok (.computed, (3, 1, 3), 3333333333333333333333333333 / 10 ^ 28, 1)) ∧
      (expired.bind request).map Prod.fst =
        some (.ok (.database, (3, 1, 3), 3333 / 10 ^ 4, 1)) := by
  constructor <;> decide +kernel

theorem sources_agree_iff_half :
    ∃ fields w, Query.request {} (.retention 0) (comeback 2) = some (.ok (.computed, fields), w) ∧
      ∀ es w₁, elapse es w = some w₁ →
        ∃ w₂, Query.request {} (.retention 0) w₁ =
          some (.ok (sourceAt {} (.retention 0) 0 w₁.warehouse.clock, fields), w₂) := by
  have hcomputed : (Query.request {} (.retention 0) (comeback 2)).map Prod.fst =
      some (.ok (.computed, (2, 1, 2), 1 / 2, 1)) := by
    decide +kernel
  obtain ⟨⟨r, w⟩, hrun, rfl⟩ := Option.map_eq_some_iff.mp hcomputed
  exact ⟨_, w, hrun, (sources_agree_iff hrun).mpr (by decide +kernel)⟩

end EventAnalytics.Workers
