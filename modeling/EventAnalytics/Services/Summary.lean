import EventAnalytics.Db.Reports
import EventAnalytics.Services.MetricsService

/-! `app/services/metrics_service.py`: retention, the realtime rate and the summary
of all metrics. -/
namespace EventAnalytics.Services

open Library Db

/-- The methods of the daily users and the funnel, beside the others. -/
def inReports {α : Type} (p : MetricsApp α) : ReportApp α :=
  p.embed ReportCmd.metric fun _ r => r

theorem inReports_bind {α β : Type} (p : MetricsApp α) (q : α → MetricsApp β) :
    inReports (p >>= q) = inReports p >>= fun a => inReports (q a) :=
  Prog.embed_bind p q

theorem inReports_ask (c : MetricsCmd) : inReports (ask c) = query (.metric c) := by
  refine congrArg (Prog.call (ReportCmd.metric c)) (funext fun r => ?_)
  cases r <;> rfl

structure RetentionResponse where
  cohortDate : Day
  cohortSize : Nat
  d1Retained : Nat
  d7Retained : Nat
  d1Rate : Decimal
  d7Rate : Decimal
  source : Source
  computedAt : Option Nat
  deriving DecidableEq, Repr

/-- `epm` is a count: its float is exact. -/
structure RealtimeEPMResponse where
  eventsPerMinute : Nat
  source : Source
  deriving DecidableEq, Repr

structure MetricsSummary where
  dauToday : Nat
  eventsTotal : Nat
  eventsLastMinute : Nat
  funnel : FunnelResponse
  retention : Option RetentionResponse
  deriving DecidableEq, Repr

/-- `Decimal(retained) / Decimal(cohort_size) if cohort_size else Decimal("0")`. -/
def rate (retained cohortSize : Nat) : Decimal :=
  if cohortSize = 0 then ⟨0, 0⟩ else .div retained cohortSize

/-- How many of the cohort came back on the first day, and on the seventh. -/
def retainedOf (cohortDate : Day) (cohortIds : List UUID) : ReportApp (Nat × Nat) := do
  if cohortIds.length = 0 then pure (0, 0)
  else
    let d1Retained ← query
      (.countAmong cohortIds (midnight (cohortDate + 1)) (midnight (cohortDate + 2)))
    let d7Retained ← query
      (.countAmong cohortIds (midnight (cohortDate + 7)) (midnight (cohortDate + 8)))
    pure (d1Retained, d7Retained)

/-- The cohort are the users whose first event falls on the date. -/
def computeRetention (settings : Settings) (cohortDate : Day) : ReportApp RetentionRow := do
  query (.metric (.advisoryLock (yyyymmdd cohortDate + 2000000)))
  -- of the three days that are added up here, the last
  let _ ← Prog.ofExcept (addDays cohortDate 8)
  let cohortIds ← query (.cohort (midnight cohortDate) (midnight (cohortDate + 1)))
  let cohortSize := cohortIds.length
  let (d1Retained, d7Retained) ← retainedOf cohortDate cohortIds
  let d1Rate := rate d1Retained cohortSize
  let d7Rate := rate d7Retained cohortSize
  let now ← query (.metric .now)
  let snap : RetentionRow := ⟨cohortSize, d1Retained, d7Retained, d1Rate, d7Rate, now⟩
  query (.upsertRetention cohortDate snap)
  query (.retentionSet cohortDate
    ⟨cohortSize, d1Retained, d7Retained, d1Rate.str, d7Rate.str, now⟩ settings.cacheTtlRetention)
  pure snap

def RetentionResponse.ofRow (cohortDate : Day) (row : RetentionRow) (source : Source) :
    RetentionResponse :=
  ⟨cohortDate, row.cohortSize, row.d1Retained, row.d7Retained, row.d1Rate, row.d7Rate, source,
    some row.computedAt⟩

def RetentionResponse.ofData (cohortDate : Day) (data : RetentionData) : RetentionResponse :=
  ⟨cohortDate, data.cohortSize, data.d1Retained, data.d7Retained, data.d1Rate.decimal,
    data.d7Rate.decimal, .cache, some data.computedAt⟩

/-- The default is the cohort of 8 days ago, so that its seventh day is complete. -/
def getRetention (settings : Settings) (cohortDate : Option Day) :
    ReportApp RetentionResponse := do
  let today := dateOf (← query (.metric .now))
  let cohortDate := cohortDate.getD (today - 8)
  match ← query (.retentionGet cohortDate) with
  | some data => pure (.ofData cohortDate data)
  | none =>
    match ← query (.selectRetention cohortDate) with
    | some row => pure (.ofRow cohortDate row .database)
    | none =>
      let snap ← computeRetention settings cohortDate
      pure (.ofRow cohortDate snap .computed)

def getApproxDauHll (metricDate : Option Day) : ReportApp Nat := do
  let metricDate ←
    match metricDate with
    | some d => pure d
    | none => dateOf <$> query (.metric .now)
  let estimate ← query (.pfCount metricDate)
  let _ ← query (.metric .now)
  pure estimate

def getRealtimeEpm (settings : Settings) : ReportApp RealtimeEPMResponse := do
  match ← query .epmGet with
  | some epm => pure ⟨epm, .cache⟩
  | none =>
    let now ← query (.metric .now)
    let epm ← query (.countSince (now - 60000))
    query (.epmSet epm settings.cacheTtlRealtime)
    pure ⟨epm, .database⟩

/-- A summary without the retention is served when `getRetention` raises. -/
def getSummary (settings : Settings) : ReportApp MetricsSummary := do
  let today := dateOf (← query (.metric .now))
  let dau ← inReports (getDau settings (some today))
  let _ ← getApproxDauHll (some today)
  let epm ← getRealtimeEpm settings
  let funnel ← inReports (getFunnel settings none none)
  let total ← query .countEvents
  let retention ← (some <$> getRetention settings none).tryExcept fun _ => pure none
  pure ⟨dau.dau, total, epm.eventsPerMinute, funnel, retention⟩

end EventAnalytics.Services
