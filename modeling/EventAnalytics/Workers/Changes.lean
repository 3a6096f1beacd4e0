import EventAnalytics.Workers.LockOrder
import EventAnalytics.Workers.Sources

/-! What each command of the metrics service does to snapshots and caches, and what it
answers. -/
namespace EventAnalytics.Workers

open Library Db Services

variable {w w' : Reports} {i : Nat}

structure Unchanged (w w' : Reports) : Prop where
  events : w'.warehouse.events = w.warehouse.events
  rows : w'.warehouse.rows = w.warehouse.rows
  cache : w'.warehouse.cache = w.warehouse.cache
  written : w'.warehouse.written ⊆ w.warehouse.written
  retention : w'.retention = w.retention
  retentionCache : w'.retentionCache = w.retentionCache
  retentionWritten : w'.retentionWritten ⊆ w.retentionWritten
  epm : w'.epmCache = w.epmCache

/-- What a command does to snapshots and caches. -/
inductive Change (i : Nat) (w : Reports) : ReportCmd → Reports → Prop
  | nothing {c : ReportCmd} {w' : Reports} (h : Unchanged w w') : Change i w c w'
  | cached {p : Period} {row : p.Row} {ttl : Nat} :
      Change i w (.metric (.cacheSet p row ttl)) { w with
        warehouse := { w.warehouse with
          cache := Function.update w.warehouse.cache p
            (some ⟨row, w.warehouse.clock + ttl * 1000⟩) } }
  | wrote {p : Period} {insert update : p.Row} :
      Change i w (.metric (.upsert p insert update))
        { w with warehouse := w.warehouse.upsert i p insert update }
  | committed :
      Change i w (.metric .commit)
        { w.commitRetention i with warehouse := w.warehouse.commitTx i }
  | cachedRetention {d : Day} {data : RetentionData} {ttl : Nat} :
      Change i w (.retentionSet d data ttl) { w with
        retentionCache := Function.update w.retentionCache d
          (some (data, w.warehouse.clock + ttl * 1000)) }
  | wroteRetention {d : Day} {row : RetentionRow} {columns : RetentionColumns}
      (hstore : row.store = some columns) :
      Change i w (.upsertRetention d row)
        { w with retentionWritten := (i, d, columns) :: w.retentionWritten }
  | cachedEpm {epm ttl : Nat} :
      Change i w (.epmSet epm ttl)
        { w with epmCache := some (epm, w.warehouse.clock + ttl * 1000) }

theorem Unchanged.refl (w : Reports) : Unchanged w w :=
  ⟨rfl, rfl, rfl, fun _ h => h, rfl, rfl, fun _ h => h, rfl⟩

theorem unchanged_abortTx (w : Reports) (i : Nat) : Unchanged w (w.abortTx i) :=
  ⟨rfl, rfl, rfl, List.filter_subset_self _, rfl, rfl, List.filter_subset_self _, rfl⟩

theorem unchanged_rollbackTx (w : Reports) (i : Nat) : Unchanged w (w.rollbackTx i) :=
  ⟨rfl, rfl, rfl, List.filter_subset_self _, rfl, rfl, List.filter_subset_self _, rfl⟩

theorem stored_eq {p : Period} {row row' : p.Row} (h : p.stored row = some row') : row' = row := by
  cases p with
  | dau d => exact stored_dau h
  | funnel a b => exact stored_funnel h

theorem change_warehouse {ch : Choice} {c : MetricsCmd} {r : Except Exn c.Resp}
    (hexec : w.warehouseExec i ch c = some (r, w')) : Change i w (.metric c) w' := by
  obtain ⟨⟨r', v⟩, heffect, hw⟩ := Option.map_eq_some_iff.mp hexec
  cases hw
  cases ch with
  | ok =>
      cases c <;> simp only [warehouse, metricsEffect] at heffect
      case now | cacheGet =>
        cases heffect
        exact .nothing (.refl w)
      case cacheSet =>
        split at heffect <;> cases heffect
        · exact .nothing (.refl w)
        · exact .cached
      case advisoryLock key =>
        split at heffect
        · cases heffect
          exact .nothing (.refl w)
        · split at heffect <;> cases heffect
          exact .nothing ⟨rfl, rfl, rfl, fun _ h => h, rfl, rfl, fun _ h => h, rfl⟩
      case countUsers | select =>
        split at heffect <;> cases heffect <;> exact .nothing (.refl w)
      case upsert =>
        split at heffect
        · cases heffect
          exact .nothing (.refl w)
        · split at heffect <;> cases heffect
          exact .wrote
      case commit =>
        cases heffect
        exact .committed
      case rollback =>
        cases heffect
        exact .nothing (unchanged_rollbackTx w i)
  | raiseBefore =>
      cases c
      case rollback =>
        cases heffect
        exact .nothing (unchanged_rollbackTx w i)
      all_goals
        cases heffect
        exact .nothing (.refl w)
  | raiseAfter =>
      cases c <;> simp only [warehouse, metricsEffect, MetricsCmd.statement] at heffect
      case rollback =>
        cases heffect
        exact .nothing (unchanged_rollbackTx w i)
      case commit =>
        cases heffect
        exact .committed
      case cacheSet =>
        split at heffect
        · contradiction
        · split at heffect <;> cases heffect
          · exact .nothing (.refl w)
          · exact .cached
      case now | cacheGet =>
        cases heffect
        exact .nothing (.refl w)
      all_goals
        cases heffect
        exact .nothing (unchanged_abortTx w i)

theorem change_metric {ch : Choice} {c : MetricsCmd} {r : Except Exn c.Resp}
    (hexec : w.metricExec i ch c = some (r, w')) : Change i w (.metric c) w' := by
  cases c
  case upsert p insert update =>
    simp only [Reports.metricExec] at hexec
    split at hexec
    · rename_i hinsert hupdate
      rw [stored_eq hinsert, stored_eq hupdate] at hexec
      exact change_warehouse hexec
    · cases hexec
      split
      · exact .nothing (.refl w)
      · exact .nothing (unchanged_abortTx w i)
  all_goals exact change_warehouse hexec

theorem change_effect {c : ReportCmd} {r : Except Exn c.Resp}
    (heffect : reportsEffect i w c = some (r, w')) : Change i w c w' := by
  cases c
  case metric c => exact change_metric heffect
  case upsertRetention d row =>
    simp only [reportsEffect] at heffect
    split at heffect
    · cases heffect
      exact .nothing (.refl w)
    · split at heffect
      · cases heffect
        exact .nothing (unchanged_abortTx w i)
      · rename_i hstore
        split at heffect <;> cases heffect
        exact .wroteRetention hstore
  case retentionSet =>
    simp only [reportsEffect] at heffect
    split at heffect <;> cases heffect
    · exact .nothing (.refl w)
    · exact .cachedRetention
  case epmSet =>
    simp only [reportsEffect] at heffect
    split at heffect <;> cases heffect
    · exact .nothing (.refl w)
    · exact .cachedEpm
  case retentionGet | pfCount | epmGet =>
    cases heffect
    exact .nothing (.refl w)
  all_goals
    simp only [reportsEffect] at heffect
    split at heffect <;> cases heffect <;> exact .nothing (.refl w)

theorem change_exec {ch : Choice} {c : ReportCmd} {r : Except Exn c.Resp}
    (hexec : reports.exec i ch w c = some (r, w')) : Change i w c w' := by
  cases c
  case metric c => exact change_metric hexec
  all_goals
    cases ch
    case ok => exact change_effect hexec
    case raiseBefore =>
      cases hexec
      exact .nothing (.refl w)
    case raiseAfter =>
      simp only [reports, ReportCmd.statement, if_true, Bool.false_eq_true, if_false] at hexec
      cases hexec
      first
        | exact .nothing (unchanged_abortTx w i)
        | (cases heffect : reportsEffect i w _ with
            | none => exact .nothing (.refl w)
            | some rw => exact change_effect heffect)

/-- The events only grow, and time does not go back. -/
structure Forward (w w' : Reports) : Prop where
  events : w.warehouse.events <+: w'.warehouse.events
  clock : w.warehouse.clock ≤ w'.warehouse.clock

theorem Forward.refl (w : Reports) : Forward w w :=
  ⟨List.prefix_refl _, le_rfl⟩

theorem Forward.trans {a b c : Reports} (hab : Forward a b) (hbc : Forward b c) : Forward a c :=
  ⟨hab.events.trans hbc.events, hab.clock.trans hbc.clock⟩

theorem Change.events {c : ReportCmd} (h : Change i w c w') :
    w'.warehouse.events = w.warehouse.events := by
  cases h with
  | nothing h => exact h.events
  | _ => rfl

theorem Change.forward {c : ReportCmd} (h : Change i w c w') (hfoot : Footprint i w c w') :
    Forward w w' :=
  ⟨h.events ▸ List.prefix_refl _, hfoot.clock.ge⟩

theorem forward_env {e : ReportEnv} (henv : reports.env e w = some w') : Forward w w' := by
  cases e with
  | visit d n =>
      cases henv
      exact ⟨List.prefix_refl _, le_rfl⟩
  | metric e =>
      obtain ⟨v, hv, rfl⟩ := Option.map_eq_some_iff.mp henv
      cases e with
      | tick ms =>
          cases hv
          exact ⟨List.prefix_refl _, Nat.le_add_right ..⟩
      | store row =>
          cases hv
          exact ⟨List.prefix_append _ _, le_rfl⟩

theorem mem_of_ownRetention? {d : Day} {columns : RetentionColumns}
    (h : w.ownRetention? i d = some columns) : (i, d, columns) ∈ w.retentionWritten := by
  obtain ⟨⟨j, d', columns'⟩, hmem, hfound⟩ := List.exists_of_findSome?_eq_some h
  split at hfound <;> cases hfound
  rename_i hown
  obtain ⟨rfl, rfl⟩ := hown
  exact hmem

theorem Footprint.key_new {c : ReportCmd} (h : Footprint i w c w') {k : Int}
    (hk : k ∈ keysOf i w') : k ∈ keysOf i w ∨ ∀ j, k ∈ keysOf j w → j = i := by
  cases h with
  | within hwithin => exact .inl (keysOf_congr hwithin.locks i ▸ hk)
  | locked hfree hlocks =>
      rw [keysOf_locked_self hlocks, List.mem_append, List.mem_singleton] at hk
      rcases hk with hk | rfl
      · exact .inl hk
      · exact .inr hfree
  | wrote hlocks => exact .inl (keysOf_congr hlocks i ▸ hk)
  | wroteRetention hwarehouse =>
      exact .inl (keysOf_congr (congrArg Warehouse.locks hwarehouse) i ▸ hk)
  | closed _ hlocks =>
      rw [keysOf_dropped_self hlocks] at hk
      cases hk

def Answer (i : Nat) (w : Reports) : (c : ReportCmd) → c.Resp → Prop
  | .metric .now, t => t = w.warehouse.clock
  | .metric (.cacheGet p), found =>
    ∀ row, found = some row → ∃ c, w.warehouse.cache p = some c ∧ c.row = row
  | .metric (.countUsers start stop eventType), n =>
    n = distinct (userIn start stop eventType) w.warehouse.events
  | .metric (.select p), found => found = (w.warehouse.own? i p).or (w.warehouse.rows p)
  | .retentionGet d, found =>
    ∀ data, found = some data → ∃ expiry, w.retentionCache d = some (data, expiry)
  | .cohort start stop, users => users = cohortOf w.warehouse.events start stop
  | .countAmong users start stop, n => n = distinct (userAmong users start stop) w.warehouse.events
  | .selectRetention d, found =>
    found = ((w.ownRetention? i d).or (w.retention d)).map RetentionColumns.load
  | .epmGet, found => ∀ epm, found = some epm → ∃ expiry, w.epmCache = some (epm, expiry)
  | .countSince since, n => n = w.warehouse.events.countP fun row => since ≤ row.serverTs
  | .countEvents, n => n = w.warehouse.events.length
  | _, _ => True

theorem answer_exec {ch : Choice} {c : ReportCmd} {a : c.Resp}
    (hexec : reports.exec i ch w c = some (.ok a, w')) : Answer i w c a := by
  cases c
  case metric c =>
    cases c
    case now =>
      cases ch <;> cases hexec
      rfl
    case cacheGet p =>
      cases ch <;> cases hexec
      intro row hrow
      unfold Warehouse.cached? at hrow
      split at hrow
      · rename_i c hc
        split at hrow <;> cases hrow
        exact ⟨c, hc, rfl⟩
      · cases hrow
    case countUsers | select =>
      cases ch
      case ok =>
        obtain ⟨rv, heffect, hw⟩ := Option.map_eq_some_iff.mp hexec
        simp only [warehouse, metricsEffect] at heffect
        split at heffect <;> cases heffect <;> cases hw
        rfl
      all_goals cases hexec
    all_goals trivial
  case retentionGet d =>
    cases ch <;> cases hexec
    intro data hdata
    obtain ⟨⟨data', expiry⟩, hc, hlive⟩ := Option.bind_eq_some_iff.mp hdata
    split at hlive <;> cases hlive
    exact ⟨expiry, hc⟩
  case epmGet =>
    cases ch <;> cases hexec
    intro epm hepm
    obtain ⟨⟨epm', expiry⟩, hc, hlive⟩ := Option.bind_eq_some_iff.mp hepm
    split at hlive <;> cases hlive
    exact ⟨expiry, hc⟩
  case cohort | countAmong | selectRetention | countSince | countEvents =>
    cases ch
    case ok =>
      simp only [reports, reportsEffect] at hexec
      split at hexec <;> cases hexec
      rfl
    all_goals cases hexec
  all_goals trivial

end EventAnalytics.Workers
