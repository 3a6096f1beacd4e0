import EventAnalytics.Library.Atomic
import EventAnalytics.Library.Auxiliary
import EventAnalytics.Workers.MetricJobs

/-! Whether the metrics of a period are exact once it is over. The jobs compute
the day that it is when they fire; what a day brings after its last computation
is in no snapshot, and a snapshot that exists is never computed again. Requests
and jobs are the steps here: each runs to its end before the next begins. -/
namespace EventAnalytics.Workers

open Library Db Services

abbrev Counted := Period → Option Nat

def snapshotRecorder : Recorder MetricsCmd.Resp Exn Warehouse Counted where
  step _ w c r _ counted :=
    match c, r with
    | .upsert p _ _, .ok _ => Function.update counted p (some w.events.length)
    | _, _ => counted
  crash _ _ counted := counted

abbrev MetricsState := Warehouse × Counted

/-- One session, in which nothing fails. -/
def metricsStep (st : MetricsState) (c : MetricsCmd) :
    Option (Except Exn c.Resp × MetricsState) :=
  (warehouse.recorded snapshotRecorder).exec 0 .ok st c

inductive Op
  | insert (row : EventRow)
  | tick (ms : Nat)
  | getDau (metricDate : Option Day)
  | getFunnel (windowStart windowEnd : Option Day)
  | computeDauJob
  | computeFunnelJob

/-- Inserts take the time of the clock; cache entries expire as it goes on. -/
def Op.step (settings : Settings) (st : MetricsState) : Op → Option MetricsState
  | .insert row => (warehouse.recorded snapshotRecorder).env (.store row) st
  | .tick ms => (warehouse.recorded snapshotRecorder).env (.tick ms) st
  | .getDau d => ((metricsRequest (Services.getDau settings d)).run metricsStep st).map Prod.snd
  | .getFunnel a b =>
    ((metricsRequest (Services.getFunnel settings a b)).run metricsStep st).map Prod.snd
  | .computeDauJob => ((Workers.computeDauJob settings).run metricsStep st).map Prod.snd
  | .computeFunnelJob => ((Workers.computeFunnelJob settings).run metricsStep st).map Prod.snd

def runOps (settings : Settings) : List Op → MetricsState → Option MetricsState
  | [], st => some st
  | op :: ops, st => (op.step settings st).bind (runOps settings ops)

/-- The clock, and for each job the next hour in which it has to fire. -/
structure Cron where
  clock : Nat
  dau : Nat
  funnel : Nat

def Cron.start (clock : Nat) : Cron where
  clock := clock
  dau := (clock + 3599999 - 5 * 60000) / 3600000
  funnel := (clock + 3599999 - 10 * 60000) / 3600000

/-- A job fires in its minute: not before, and the minute does not pass without it. -/
def Cron.next (c : Cron) : Op → Option Cron
  | .tick ms =>
    let clock := c.clock + ms
    if clock < fireTime 5 c.dau + 60000 ∧ clock < fireTime 10 c.funnel + 60000 then
      some { c with clock := clock }
    else none
  | .computeDauJob =>
    if fireTime 5 c.dau ≤ c.clock then some { c with dau := c.dau + 1 } else none
  | .computeFunnelJob =>
    if fireTime 10 c.funnel ≤ c.clock then some { c with funnel := c.funnel + 1 } else none
  | _ => some c

def onSchedule : Cron → List Op → Bool
  | _, [] => true
  | c, op :: ops =>
    match c.next op with
    | some c => onSchedule c ops
    | none => false

/-- What a snapshot counts: distinct users between two times, of an event type. -/
def queriesOf : Period → List (Int × Int × Option String)
  | .dau d => [(midnight d, midnight (d + 1), none)]
  | .funnel a b => funnelOrder.map fun step => (midnight a, midnight (b + 1), some step)

def usersOf (q : Int × Int × Option String) : EventRow → Option UUID :=
  userIn q.1 q.2.1 q.2.2

def exactCounts (p : Period) (events : List EventRow) : List Nat :=
  (queriesOf p).map fun q => distinct (usersOf q) events

def countsOf : (p : Period) → p.Row → List Nat
  | .dau _, row => [row.value]
  | .funnel .., row => [row.viewCount, row.searchCount, row.cartCount, row.orderCount]

/-- A read of the period returns the counts over all events. -/
def Serves (settings : Settings) (st : MetricsState) : Period → Prop
  | .dau d => ∃ r st', (metricsRequest (getDau settings (some d))).run metricsStep st =
      some (.ok r, st') ∧ [r.dau] = exactCounts (.dau d) st.1.events
  | .funnel a b => ∃ r st',
      (metricsRequest (getFunnel settings (some a) (some b))).run metricsStep st =
        some (.ok r, st') ∧ r.steps.map FunnelStep.count = exactCounts (.funnel a b) st.1.events

/-- The snapshot has never been computed, or no event stored since its last
computation brings a user that it has not seen. -/
def Complete (st : MetricsState) (p : Period) : Prop :=
  ∀ n, st.2 p = some n → ∀ q ∈ queriesOf p, ∀ row ∈ st.1.events.drop n, ∀ u,
    usersOf q row = some u → u ∈ values (usersOf q) (st.1.events.take n)

structure Resting (w : Warehouse) : Prop where
  written : w.written = []
  locks : w.locks = []
  session : w.aborted 0 = false

/-- Between two operations the cache shows the rows, and each row the counts of the
events of its time. -/
structure Consistent (st : MetricsState) : Prop where
  resting : Resting st.1
  cached : ∀ p c, st.1.cache p = some c → st.1.rows p = some c.row
  counted : ∀ p row, st.1.rows p = some row → ∃ n, st.2 p = some n ∧ n ≤ st.1.events.length ∧
    countsOf p row = exactCounts p (st.1.events.take n)
  uncounted : ∀ p, st.1.rows p = none → st.2 p = none

section Transactions

variable {w : Warehouse} {counted : Counted} {settings : Settings}

/-- A computation before its commit: the row is written, the cache is filled. -/
def drafted (w : Warehouse) (p : Period) (row : p.Row) (key : Int) (ttl : Nat) : Warehouse :=
  { w with
    locks := [(0, key)]
    written := [(0, ⟨p, row⟩)]
    cache := Function.update w.cache p (some ⟨row, w.clock + ttl * 1000⟩) }

def published (w : Warehouse) (p : Period) (row : p.Row) (ttl : Nat) : Warehouse :=
  { w with
    rows := Function.update w.rows p (some row)
    cache := Function.update w.cache p (some ⟨row, w.clock + ttl * 1000⟩) }

theorem Resting.rollback (hw : Resting w) : w.rollbackTx 0 = w := by
  refine Warehouse.ext rfl rfl rfl rfl ?_ ?_ (setAt_same hw.session)
  · simp [Warehouse.rollbackTx, Warehouse.dropWrites, hw.written]
  · simp [Warehouse.rollbackTx, Warehouse.dropLocks, hw.locks]

theorem Resting.commit (hw : Resting w) : w.commitTx 0 = w := by
  unfold Warehouse.commitTx
  rw [hw.rollback]
  refine Warehouse.ext rfl rfl ?_ rfl rfl rfl rfl
  simp [Warehouse.own?, hw.written]

theorem Resting.published (hw : Resting w) (p : Period) (row : p.Row) (ttl : Nat) :
    Resting (published w p row ttl) :=
  ⟨hw.written, hw.locks, hw.session⟩

theorem commit_drafted (hw : Resting w) (p : Period) (row : p.Row) (key : Int) (ttl : Nat) :
    (drafted w p row key ttl).commitTx 0 = published w p row ttl := by
  refine Warehouse.ext rfl rfl ?_ rfl ?_ ?_ (setAt_same hw.session)
  · funext p'
    by_cases hp : p = p'
    · subst hp
      simp [drafted, published, Warehouse.commitTx, Warehouse.own?]
    · simp [drafted, published, Warehouse.commitTx, Warehouse.rollbackTx, Warehouse.own?, hp,
        Function.update_of_ne (Ne.symm hp)]
  · simp [drafted, published, Warehouse.commitTx, Warehouse.rollbackTx, Warehouse.dropWrites,
      hw.written]
  · simp [drafted, published, Warehouse.commitTx, Warehouse.rollbackTx, Warehouse.dropLocks,
      hw.locks]

theorem run_computeDau (counted : Counted) (hw : Resting w) (httl : settings.cacheTtlDau ≠ 0)
    (d : Day) :
    ∃ row : DauRow, countsOf (.dau d) row = exactCounts (.dau d) w.events ∧
      (computeDau settings d).run metricsStep (w, counted) =
        some (.ok row.value,
          drafted w (.dau d) row (yyyymmdd d) settings.cacheTtlDau,
          Function.update counted (.dau d) (some w.events.length)) := by
  refine ⟨⟨distinct (userIn (midnight d) (midnight (d + 1)) none) w.events, w.clock⟩, rfl, ?_⟩
  simp [computeDau, Prog.perform, Prog.run, Prog.ofExcept, metricsStep, Machine.recorded,
    warehouse, metricsEffect, snapshotRecorder, hw.session, hw.locks, hw.written, httl, drafted,
    Warehouse.upsert]

theorem run_computeFunnel (counted : Counted) (hw : Resting w)
    (httl : settings.cacheTtlFunnel ≠ 0) (a b : Day) :
    ∃ row : FunnelRow, countsOf (.funnel a b) row = exactCounts (.funnel a b) w.events ∧
      (computeFunnel settings a b).run metricsStep (w, counted) =
        some (.ok row,
          drafted w (.funnel a b) row (yyyymmdd a + 1000000) settings.cacheTtlFunnel,
          Function.update counted (.funnel a b) (some w.events.length)) := by
  refine ⟨⟨distinct (userIn (midnight a) (midnight (b + 1)) (some "view")) w.events,
    distinct (userIn (midnight a) (midnight (b + 1)) (some "search")) w.events,
    distinct (userIn (midnight a) (midnight (b + 1)) (some "add_to_cart")) w.events,
    distinct (userIn (midnight a) (midnight (b + 1)) (some "order")) w.events, w.clock⟩, rfl, ?_⟩
  simp [computeFunnel, Prog.perform, Prog.run, Prog.ofExcept, metricsStep, Machine.recorded,
    warehouse, metricsEffect, snapshotRecorder, hw.session, hw.locks, hw.written, httl, drafted,
    Warehouse.upsert]

end Transactions

section Requests

variable {st st' : MetricsState} {settings : Settings} {α β : Type}

theorem run_commit {q : Unit → MetricsApp β} :
    (ask .commit >>= q).run metricsStep st = (q ()).run metricsStep (st.1.commitTx 0, st.2) :=
  Prog.run_perform_ok rfl

theorem run_rollback {q : Unit → MetricsApp β} :
    (ask .rollback >>= q).run metricsStep st = (q ()).run metricsStep (st.1.rollbackTx 0, st.2) :=
  Prog.run_perform_ok rfl

theorem run_session {body : MetricsApp α} {a : α}
    (hbody : body.run metricsStep st = some (.ok a, st')) :
    (withSession (ask .rollback) (body >>= fun r => ask .commit >>= fun _ => pure r)).run
        metricsStep st =
      some (.ok a, (st'.1.commitTx 0).rollbackTx 0, st'.2) := by
  have hcommitted : (body >>= fun r => ask .commit >>= fun _ => pure r).run metricsStep st =
      some (.ok a, st'.1.commitTx 0, st'.2) := by
    rw [Prog.run_bind_ok hbody, run_commit]
    rfl
  unfold withSession
  rw [Prog.run_bind_ok (Prog.run_tryExcept_ok hcommitted), run_rollback]
  rfl

end Requests

section Reads

variable {w : Warehouse} {counted : Counted} {settings : Settings}

theorem run_now (w : Warehouse) (counted : Counted) :
    metricsStep (w, counted) .now = some (.ok w.clock, w, counted) := rfl

theorem run_cacheGet (p : Period) :
    metricsStep (w, counted) (.cacheGet p) = some (.ok (w.cached? p), w, counted) := rfl

theorem run_select (hw : Resting w) (p : Period) :
    metricsStep (w, counted) (.select p) = some (.ok (w.rows p), w, counted) := by
  simp [metricsStep, Machine.recorded, warehouse, metricsEffect, snapshotRecorder, hw.session,
    Warehouse.own?, hw.written]

theorem run_cacheSet {p : Period} {ttl : Nat} (httl : ttl ≠ 0) (row : p.Row) :
    metricsStep (w, counted) (.cacheSet p row ttl) =
      some (.ok (),
        { w with cache := Function.update w.cache p (some ⟨row, w.clock + ttl * 1000⟩) },
        counted) := by
  simp [metricsStep, Machine.recorded, warehouse, metricsEffect, snapshotRecorder, httl]

/-- How a read of a period can go: from the cache, from the row, which fills the
cache or not, or from a computation. -/
inductive ReadOutcome (w : Warehouse) (counted : Counted) (p : Period) (ttl : Nat) (key : Int) :
    p.Row → MetricsState → Prop
  | cached {row : p.Row} (hcached : w.cached? p = some row) :
      ReadOutcome w counted p ttl key row (w, counted)
  | stored {row : p.Row} (hrow : w.rows p = some row) :
      ReadOutcome w counted p ttl key row (w, counted)
  | filled {row : p.Row} (hrow : w.rows p = some row) :
      ReadOutcome w counted p ttl key row
        ({ w with cache := Function.update w.cache p (some ⟨row, w.clock + ttl * 1000⟩) }, counted)
  | computed {row : p.Row} (hnone : w.rows p = none)
      (hexact : countsOf p row = exactCounts p w.events) :
      ReadOutcome w counted p ttl key row
        (drafted w p row key ttl, Function.update counted p (some w.events.length))

theorem run_getDau (counted : Counted) (hw : Resting w) (httl : settings.cacheTtlDau ≠ 0)
    (metricDate : Option Day) :
    ∃ r row st', (getDau settings metricDate).run metricsStep (w, counted) =
        some (.ok r, st') ∧ r.dau = row.value ∧
      ReadOutcome w counted (.dau (metricDate.getD (dateOf w.clock))) settings.cacheTtlDau
        (yyyymmdd (metricDate.getD (dateOf w.clock))) row st' := by
  have hdate : (getDau settings metricDate).run metricsStep (w, counted) =
      (getDau settings (some (metricDate.getD (dateOf w.clock)))).run metricsStep
        (w, counted) := by
    cases metricDate <;> rfl
  rw [hdate]
  generalize metricDate.getD (dateOf w.clock) = d
  simp only [getDau, Prog.pure_eq, Prog.ret_bind]
  rw [Prog.run_perform_ok (run_cacheGet _)]
  cases hcached : w.cached? (.dau d) with
  | some row => exact ⟨_, row, _, rfl, rfl, .cached hcached⟩
  | none =>
      simp only
      rw [Prog.run_perform_ok (run_select hw _)]
      cases hrow : w.rows (.dau d) with
      | some row =>
          simp only
          rw [Prog.run_perform_ok (run_cacheSet httl _)]
          exact ⟨_, row, _, rfl, rfl, .filled hrow⟩
      | none =>
          obtain ⟨row, hexact, hrun⟩ := run_computeDau counted hw httl d
          simp only
          rw [Prog.run_bind_ok hrun, Prog.run_perform_ok (run_now _ _)]
          exact ⟨_, row, _, rfl, rfl, .computed hrow hexact⟩

theorem counts_funnelToResponse (a b : Day) (row : FunnelRow) (source : Source) :
    (funnelToResponse a b row source).steps.map FunnelStep.count =
      countsOf (.funnel a b) row := rfl

theorem run_getFunnel (counted : Counted) (hw : Resting w) (httl : settings.cacheTtlFunnel ≠ 0)
    (windowStart windowEnd : Option Day) :
    let stop := windowEnd.getD (dateOf w.clock)
    let start := windowStart.getD (stop - 6)
    ∃ r row st', (getFunnel settings windowStart windowEnd).run metricsStep (w, counted) =
        some (.ok r, st') ∧ r.steps.map FunnelStep.count = countsOf (.funnel start stop) row ∧
      ReadOutcome w counted (.funnel start stop) settings.cacheTtlFunnel
        (yyyymmdd start + 1000000) row st' := by
  intro stop start
  have hwindow : (getFunnel settings windowStart windowEnd).run metricsStep (w, counted) =
      (getFunnel settings (some start) (some stop)).run metricsStep (w, counted) := rfl
  rw [hwindow]
  generalize start = a, stop = b
  simp only [getFunnel, Option.getD_some]
  rw [Prog.run_perform_ok (run_now w counted), Prog.run_perform_ok (run_cacheGet _)]
  cases hcached : w.cached? (.funnel a b) with
  | some row => exact ⟨_, row, _, rfl, counts_funnelToResponse _ _ _ _, .cached hcached⟩
  | none =>
      simp only
      rw [Prog.run_perform_ok (run_select hw _)]
      cases hrow : w.rows (.funnel a b) with
      | some row => exact ⟨_, row, _, rfl, counts_funnelToResponse _ _ _ _, .stored hrow⟩
      | none =>
          obtain ⟨row, hexact, hrun⟩ := run_computeFunnel counted hw httl a b
          simp only
          rw [Prog.run_bind_ok hrun]
          exact ⟨_, row, _, rfl, counts_funnelToResponse _ _ _ _, .computed hrow hexact⟩

end Reads

section Consistency

variable {w : Warehouse} {counted : Counted} {settings : Settings} {p : Period} {ttl : Nat}
  {key : Int}

theorem Consistent.publish (h : Consistent (w, counted)) {row : p.Row}
    (hexact : countsOf p row = exactCounts p w.events) (ttl : Nat) :
    Consistent (published w p row ttl, Function.update counted p (some w.events.length)) := by
  refine ⟨h.resting.published p row ttl, fun p' c hc => ?_, fun p' row' hrow => ?_,
    fun p' hnone => ?_⟩
  · by_cases hp : p' = p
    · subst hp
      simp only [published, Function.update_self, Option.some.injEq] at hc ⊢
      rw [← hc]
    · simp only [published, Function.update_of_ne hp] at hc ⊢
      exact h.cached p' c hc
  · by_cases hp : p' = p
    · subst hp
      simp only [published, Function.update_self, Option.some.injEq] at hrow
      subst hrow
      exact ⟨_, Function.update_self .., le_rfl, by simpa [published] using hexact⟩
    · simp only [published, Function.update_of_ne hp] at hrow ⊢
      exact h.counted p' row' hrow
  · by_cases hp : p' = p
    · subst hp
      simp [published] at hnone
    · simp only [published, Function.update_of_ne hp] at hnone ⊢
      exact h.uncounted p' hnone

theorem Consistent.fill (h : Consistent (w, counted)) {row : p.Row} (hrow : w.rows p = some row)
    (expiresAt : Nat) :
    Consistent
      ({ w with cache := Function.update w.cache p (some ⟨row, expiresAt⟩) }, counted) := by
  refine ⟨⟨h.resting.written, h.resting.locks, h.resting.session⟩, fun p' c hc => ?_, h.counted,
    h.uncounted⟩
  by_cases hp : p' = p
  · subst hp
    simp only [Function.update_self, Option.some.injEq] at hc
    subst hc
    exact hrow
  · simp only [Function.update_of_ne hp] at hc
    exact h.cached p' c hc

theorem Consistent.settle (h : Consistent (w, counted)) {row : p.Row}
    (hexact : countsOf p row = exactCounts p w.events) (key : Int) (ttl : Nat) :
    Consistent (((drafted w p row key ttl).commitTx 0).rollbackTx 0,
      Function.update counted p (some w.events.length)) := by
  have hpublish := h.publish hexact ttl
  rw [commit_drafted h.resting, hpublish.resting.rollback]
  exact hpublish

theorem Consistent.read (h : Consistent (w, counted)) {row : p.Row} {st' : MetricsState}
    (hread : ReadOutcome w counted p ttl key row st') :
    Consistent ((st'.1.commitTx 0).rollbackTx 0, st'.2) := by
  cases hread with
  | cached hcached => simpa only [h.resting.commit, h.resting.rollback] using h
  | stored hrow => simpa only [h.resting.commit, h.resting.rollback] using h
  | filled hrow =>
      have hfill := h.fill hrow (w.clock + ttl * 1000)
      simpa only [hfill.resting.commit, hfill.resting.rollback] using hfill
  | computed hnone hexact => exact h.settle hexact key ttl

theorem Consistent.served (h : Consistent (w, counted)) {row : p.Row} {st' : MetricsState}
    (hread : ReadOutcome w counted p ttl key row st') :
    w.rows p = some row ∨ w.rows p = none ∧ countsOf p row = exactCounts p w.events := by
  cases hread with
  | cached hcached =>
      unfold Warehouse.cached? at hcached
      split at hcached
      · rename_i c hc
        split at hcached
        · cases hcached
          exact .inl (h.cached p c hc)
        · cases hcached
      · cases hcached
  | stored hrow => exact .inl hrow
  | filled hrow => exact .inl hrow
  | computed hnone hexact => exact .inr ⟨hnone, hexact⟩

theorem Consistent.env (h : Consistent (w, counted)) {e : MetricsEnv} {st' : MetricsState}
    (henv : (warehouse.recorded snapshotRecorder).env e (w, counted) = some st') :
    Consistent st' := by
  obtain ⟨w', henv, rfl⟩ := Option.map_eq_some_iff.mp henv
  cases e with
  | tick ms =>
      cases henv
      exact ⟨⟨h.resting.written, h.resting.locks, h.resting.session⟩, h.cached, h.counted,
        h.uncounted⟩
  | store row =>
      cases henv
      refine ⟨⟨h.resting.written, h.resting.locks, h.resting.session⟩, h.cached,
        fun p row' hrow => ?_, h.uncounted⟩
      obtain ⟨n, hn, hle, hcounts⟩ := h.counted p row' hrow
      refine ⟨n, hn, hle.trans (by simp), ?_⟩
      rw [List.take_append_of_le_length hle]
      exact hcounts

theorem eq_of_run {α : Type} {program : MetricsApp α} {r : Except Exn α}
    {st st₁ st' : MetricsState} (hrun : program.run metricsStep st = some (r, st₁))
    (hstep : (program.run metricsStep st).map Prod.snd = some st') : st' = st₁ := by
  rw [hrun] at hstep
  cases hstep
  rfl

theorem Consistent.step {st st' : MetricsState} (h : Consistent st)
    (hdau : settings.cacheTtlDau ≠ 0) (hfunnel : settings.cacheTtlFunnel ≠ 0) {op : Op}
    (hstep : op.step settings st = some st') : Consistent st' := by
  obtain ⟨w, counted⟩ := st
  cases op with
  | insert row => exact h.env hstep
  | tick ms => exact h.env hstep
  | getDau d =>
      obtain ⟨r, row, st₁, hrun, -, hread⟩ := run_getDau counted h.resting hdau d
      cases eq_of_run (run_session hrun) hstep
      exact h.read hread
  | getFunnel a b =>
      obtain ⟨r, row, st₁, hrun, -, hread⟩ :=
        run_getFunnel counted h.resting hfunnel a b
      cases eq_of_run (run_session hrun) hstep
      exact h.read hread
  | computeDauJob =>
      obtain ⟨row, hexact, hrun⟩ := run_computeDau counted h.resting hdau (dateOf w.clock)
      have hjob : (Workers.computeDauJob settings).run metricsStep (w, counted) = _ :=
        Prog.run_perform_ok (run_now _ _)
      rw [Prog.run_bind_ok (run_session hrun)] at hjob
      cases eq_of_run hjob hstep
      exact h.settle hexact _ _
  | computeFunnelJob =>
      obtain ⟨row, hexact, hrun⟩ := run_computeFunnel counted h.resting hfunnel
        (dateOf w.clock - 6) (dateOf w.clock)
      have hjob : (Workers.computeFunnelJob settings).run metricsStep (w, counted) = _ :=
        Prog.run_perform_ok (run_now _ _)
      rw [Prog.run_bind_ok (run_session hrun)] at hjob
      cases eq_of_run hjob hstep
      exact h.settle hexact _ _

theorem Consistent.run {st st' : MetricsState} (h : Consistent st)
    (hdau : settings.cacheTtlDau ≠ 0) (hfunnel : settings.cacheTtlFunnel ≠ 0) {ops : List Op}
    (hrun : runOps settings ops st = some st') : Consistent st' := by
  induction ops generalizing st with
  | nil =>
      cases hrun
      exact h
  | cons op ops ih =>
      obtain ⟨next, hstep, hrest⟩ := Option.bind_eq_some_iff.mp hrun
      exact ih (h.step hdau hfunnel hstep) hrest

theorem exactCounts_take_iff (p : Period) (events : List EventRow) (n : Nat) :
    exactCounts p (events.take n) = exactCounts p events ↔
      ∀ q ∈ queriesOf p, ∀ row ∈ events.drop n, ∀ u, usersOf q row = some u →
        u ∈ values (usersOf q) (events.take n) := by
  unfold exactCounts
  rw [List.map_inj_left]
  apply forall₂_congr
  intro q _
  have happend := distinct_append_iff (usersOf q) (events.take n) (events.drop n)
  rwa [List.take_append_drop] at happend

theorem Consistent.exact_iff (h : Consistent (w, counted)) {row : p.Row} {st' : MetricsState}
    (hread : ReadOutcome w counted p ttl key row st') :
    countsOf p row = exactCounts p w.events ↔ Complete (w, counted) p := by
  rcases h.served hread with hrow | ⟨hnone, hexact⟩
  · obtain ⟨n, hn, -, hcounts⟩ := h.counted p row hrow
    rw [hcounts, exactCounts_take_iff]
    constructor
    · rintro hnew m hm
      cases hn.symm.trans hm
      exact hnew
    · exact fun hcomplete => hcomplete n hn
  · refine ⟨fun _ n hn => ?_, fun _ => hexact⟩
    cases (h.uncounted p hnone).symm.trans hn

theorem exists_ok_iff {α : Type} {P : α → Prop} {program : MetricsApp α} {r : α}
    {st st₁ : MetricsState} (hrun : program.run metricsStep st = some (.ok r, st₁)) :
    (∃ r' st', program.run metricsStep st = some (.ok r', st') ∧ P r') ↔ P r := by
  constructor
  · rintro ⟨r', st', hout, hr'⟩
    cases hrun.symm.trans hout
    exact hr'
  · intro hr
    exact ⟨r, st₁, hrun, hr⟩

theorem Consistent.serves_iff {st : MetricsState} (h : Consistent st)
    (hdau : settings.cacheTtlDau ≠ 0) (hfunnel : settings.cacheTtlFunnel ≠ 0) (p : Period) :
    Serves settings st p ↔ Complete st p := by
  obtain ⟨w, counted⟩ := st
  cases p with
  | dau d =>
      obtain ⟨r, row, st₁, hrun, hr, hread⟩ := run_getDau counted h.resting hdau (some d)
      have hiff := h.exact_iff (p := .dau d) hread
      have hcounts : countsOf (.dau d) row = [r.dau] := by rw [hr]; rfl
      rw [← hiff, hcounts]
      exact exists_ok_iff (run_session hrun)
  | funnel a b =>
      obtain ⟨r, row, st₁, hrun, hr, hread⟩ := run_getFunnel counted h.resting hfunnel (some a)
        (some b)
      have hiff := h.exact_iff (p := .funnel a b) hread
      have hcounts : countsOf (.funnel a b) row = r.steps.map FunnelStep.count := hr.symm
      rw [← hiff, hcounts]
      exact exists_ok_iff (run_session hrun)

end Consistency

/-- Stores in which nothing has been computed. Events may be there. -/
structure Blank (w : Warehouse) : Prop extends Resting w where
  rows : ∀ p, w.rows p = none
  cache : ∀ p, w.cache p = none

/-- After any operations at any times, a read of a day or a window is exact if and
only if the events stored since its last computation bring no new user. -/
theorem serves_iff_complete {settings : Settings} (hdau : settings.cacheTtlDau ≠ 0)
    (hfunnel : settings.cacheTtlFunnel ≠ 0) {w : Warehouse} (hblank : Blank w) (ops : List Op)
    {st : MetricsState} (hrun : runOps settings ops (w, fun _ => none) = some st) (p : Period) :
    Serves settings st p ↔ Complete st p := by
  have hstart : Consistent (w, fun _ => none) :=
    ⟨hblank.toResting, by simp [hblank.cache], by simp [hblank.rows], fun _ _ => rfl⟩
  exact (hstart.run hdau hfunnel hrun).serves_iff hdau hfunnel p

def lastDay : Period → Day
  | .dau d => d
  | .funnel _ b => b

/-- The period is over, a further day has passed, and no cache entry made before
the end of the period can be left. -/
def Settled (settings : Settings) (p : Period) (clock : Nat) : Prop :=
  midnight (lastDay p + 2) ≤ clock ∧
    midnight (lastDay p + 1) + settings.cacheTtlDau * 1000 ≤ clock ∧
    midnight (lastDay p + 1) + settings.cacheTtlFunnel * 1000 ≤ clock

instance (settings : Settings) (p : Period) (clock : Nat) :
    Decidable (Settled settings p clock) :=
  inferInstanceAs (Decidable (_ ∧ _ ∧ _))

def lateStart : Warehouse where
  clock := 23 * 3600000
  events := []
  rows := fun _ => none
  cache := fun _ => none
  written := []
  locks := []
  aborted := fun _ => false

def lateEvent : EventRow where
  eventId := 1
  userId := some 7
  sessionId := .str "s1"
  eventType := .str "view"
  properties := .obj []
  clientTs := none
  serverTs := 0
  ipHash := .null
  userAgent := .null

def hourly : List Op :=
  [.tick 300000, .computeDauJob, .tick 300000, .computeFunnelJob, .tick 3000000]

def lastHour : List Op :=
  [.tick 300000, .computeDauJob, .tick 300000, .computeFunnelJob, .tick 1200000,
    .insert lateEvent, .tick 1800000]

def dayAndNight : List Op := lastHour ++ (List.replicate 24 hourly).flatten

/-- The day has one user, and for good none. -/
theorem late_user_missed :
    ¬ ∀ ops st p, onSchedule (.start lateStart.clock) ops = true →
      runOps {} ops (lateStart, fun _ => none) = some st → Settled {} p st.1.clock →
      Serves {} st p := by
  intro h
  have htest : (runOps {} dayAndNight (lateStart, fun _ => none)).any (fun st =>
      decide (Settled {} (.dau 0) st.1.clock) && decide (exactCounts (.dau 0) st.1.events = [1]) &&
      ((metricsRequest (getDau {} (some 0))).run metricsStep st).all fun out =>
        match out.1 with
        | .ok r => r.dau = 0
        | .error _ => true) = true := by
    decide +kernel
  obtain ⟨st, hrun, hst⟩ := (Option.any_eq_true _ _).mp htest
  simp only [Bool.and_eq_true, decide_eq_true_eq] at hst
  obtain ⟨⟨hsettled, hexact⟩, hread⟩ := hst
  obtain ⟨r, st', hr, hcounts⟩ := h dayAndNight st (.dau 0) (by decide +kernel) hrun hsettled
  rw [hr] at hread
  have hzero : r.dau = 0 := by simpa using hread
  rw [hexact, hzero] at hcounts
  exact absurd hcounts (by decide)

theorem serves_iff_complete_early_user :
    ∃ st, runOps {} (.insert lateEvent :: (List.replicate 25 hourly).flatten)
        (lateStart, fun _ => none) = some st ∧
      Settled {} (.dau 0) st.1.clock ∧ Serves {} st (.dau 0) := by
  have htest : (runOps {} (.insert lateEvent :: (List.replicate 25 hourly).flatten)
      (lateStart, fun _ => none)).any (fun st => decide (Settled {} (.dau 0) st.1.clock) &&
        decide (st.2 (.dau 0) = some 1) && decide (st.1.events.length = 1)) = true := by
    decide +kernel
  obtain ⟨st, hrun, hst⟩ := (Option.any_eq_true _ _).mp htest
  simp only [Bool.and_eq_true, decide_eq_true_eq] at hst
  obtain ⟨⟨hsettled, hcounted⟩, hlength⟩ := hst
  refine ⟨st, hrun, hsettled, (serves_iff_complete (by decide) (by decide)
    ⟨⟨rfl, rfl, rfl⟩, fun _ => rfl, fun _ => rfl⟩ _ hrun (.dau 0)).mpr ?_⟩
  intro n hn q _ row hrow
  cases hcounted.symm.trans hn
  simp [List.drop_eq_nil_of_le hlength.le] at hrow

end EventAnalytics.Workers
