import EventAnalytics.Db.Warehouse
import EventAnalytics.Settings

/-! `app/services/metrics_service.py`: the daily active users and the funnel. -/
namespace EventAnalytics.Services

open Db

inductive Source
  | cache
  | database
  | computed
  deriving DecidableEq, Repr

structure DAUResponse where
  metricDate : Day
  dau : Nat
  source : Source
  computedAt : Option Nat
  deriving DecidableEq, Repr

/-- `conversion` is the rate `round(count / previous, 4)`, kept as the two counts. -/
structure FunnelStep where
  step : String
  count : Nat
  conversion : Option (Nat × Nat)
  deriving DecidableEq, Repr

structure FunnelResponse where
  windowStart : Day
  windowEnd : Day
  steps : List FunnelStep
  source : Source
  computedAt : Option Nat
  deriving DecidableEq, Repr

def funnelOrder : List String := ["view", "search", "add_to_cart", "order"]

/-- Count distinct users with any event on a date, under the date's lock. -/
def computeDau (settings : Settings) (metricDate : Day) : MetricsApp Nat := do
  ask (.advisoryLock (yyyymmdd metricDate))
  let dau ← ask (.countUsers (midnight metricDate) (midnight (metricDate + 1)) none)
  let insertedAt ← ask .now
  let updatedAt ← ask .now
  ask (.upsert (.dau metricDate) ⟨dau, insertedAt⟩ ⟨dau, updatedAt⟩)
  let cachedAt ← ask .now
  ask (.cacheSet (.dau metricDate) ⟨dau, cachedAt⟩ settings.cacheTtlDau)
  pure dau

def getDau (settings : Settings) (metricDate : Option Day) : MetricsApp DAUResponse := do
  let metricDate ←
    match metricDate with
    | some d => pure d
    | none => dateOf <$> ask .now
  match ← ask (.cacheGet (.dau metricDate)) with
  | some data => pure ⟨metricDate, data.value, .cache, some data.computedAt⟩
  | none =>
    match ← ask (.select (.dau metricDate)) with
    | some row =>
      ask (.cacheSet (.dau metricDate) row settings.cacheTtlDau)
      pure ⟨metricDate, row.value, .database, some row.computedAt⟩
    | none =>
      let dau ← computeDau settings metricDate
      let computedAt ← ask .now
      pure ⟨metricDate, dau, .computed, some computedAt⟩

/-- Distinct users per event type in a window that includes both dates. -/
def computeFunnel (settings : Settings) (windowStart windowEnd : Day) : MetricsApp FunnelRow := do
  ask (.advisoryLock (yyyymmdd windowStart + 1000000))
  let start := midnight windowStart
  let stop := midnight (windowEnd + 1)
  let view ← ask (.countUsers start stop (some "view"))
  let search ← ask (.countUsers start stop (some "search"))
  let cart ← ask (.countUsers start stop (some "add_to_cart"))
  let order ← ask (.countUsers start stop (some "order"))
  let computedAt ← ask .now
  let snap : FunnelRow := ⟨view, search, cart, order, computedAt⟩
  ask (.upsert (.funnel windowStart windowEnd) snap snap)
  ask (.cacheSet (.funnel windowStart windowEnd) snap settings.cacheTtlFunnel)
  pure snap

def funnelSteps (previous : Option Nat) : List (String × Nat) → List FunnelStep
  | [] => []
  | (name, count) :: rest =>
    let conversion :=
      match previous with
      | some n => if n > 0 then some (count, n) else none
      | none => none
    ⟨name, count, conversion⟩ :: funnelSteps (some count) rest

def funnelToResponse (windowStart windowEnd : Day) (row : FunnelRow) (source : Source) :
    FunnelResponse where
  windowStart := windowStart
  windowEnd := windowEnd
  steps := funnelSteps none
    (funnelOrder.zip [row.viewCount, row.searchCount, row.cartCount, row.orderCount])
  source := source
  computedAt := some row.computedAt

def getFunnel (settings : Settings) (windowStart windowEnd : Option Day) :
    MetricsApp FunnelResponse := do
  let today := dateOf (← ask .now)
  let windowEnd := windowEnd.getD today
  let windowStart := windowStart.getD (windowEnd - 6)
  match ← ask (.cacheGet (.funnel windowStart windowEnd)) with
  | some data => pure (funnelToResponse windowStart windowEnd data .cache)
  | none =>
    match ← ask (.select (.funnel windowStart windowEnd)) with
    | some row => pure (funnelToResponse windowStart windowEnd row .database)
    | none =>
      let snap ← computeFunnel settings windowStart windowEnd
      pure (funnelToResponse windowStart windowEnd snap .computed)

end EventAnalytics.Services
