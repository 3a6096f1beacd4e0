import EventAnalytics.Db.Session
import EventAnalytics.Services.Summary

/-! `app/workers/tasks.py` and `app/workers/settings.py`: the metric jobs and when
they fire. -/
namespace EventAnalytics.Workers

open Library Db Services

/-- The handlers of `app/api/v1/metrics.py`, in the session of `get_db`. -/
def metricsRequest {α : Type} (handler : MetricsApp α) : MetricsApp α :=
  getDb (ask .commit) (ask .rollback) handler

def computeDauJob (settings : Settings) : MetricsApp (Day × Nat) := do
  let today := dateOf (← ask .now)
  let value ← withSession (ask .rollback) do
    let value ← computeDau settings today
    ask .commit
    pure value
  pure (today, value)

def computeFunnelJob (settings : Settings) : MetricsApp (Day × Day × FunnelRow) := do
  let today := dateOf (← ask .now)
  let start := today - 6
  let snap ← withSession (ask .rollback) do
    let snap ← computeFunnel settings start today
    ask .commit
    pure snap
  pure (start, today, snap)

def reportsRequest {α : Type} (handler : ReportApp α) : ReportApp α :=
  getDb (query (.metric .commit)) (query (.metric .rollback)) handler

def computeRetentionJob (settings : Settings) : ReportApp (Day × RetentionRow) := do
  let cohort := dateOf (← query (.metric .now)) - 8
  let snap ← withSession (query (.metric .rollback)) do
    let snap ← computeRetention settings cohort
    query (.metric .commit)
    pure snap
  pure (cohort, snap)

/-- When `cron(..., minute={m})` fires for the `k`-th time: in that minute of the
`k`-th hour. -/
def fireTime (minute k : Nat) : Nat := k * 3600000 + minute * 60000

end EventAnalytics.Workers
