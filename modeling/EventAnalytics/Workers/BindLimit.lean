import EventAnalytics.Library.Faults
import EventAnalytics.Workers.Cohorts

/-! How large a cohort the retention can be computed for. The ids that the first query
returns are sent back as parameters of the next ones, and the driver limits these. -/
namespace EventAnalytics.Workers

open Library Db Services

/-- How many parameters the statement of a command binds. -/
def bindParams : ReportCmd → Nat
  | .metric (.advisoryLock _) => 1
  | .metric (.countUsers _ _ eventType) => if eventType.isSome then 3 else 2
  | .metric (.select (.dau _)) => 2
  | .metric (.select (.funnel ..)) => 3
  -- the inserted values and those of the `SET` clause
  | .metric (.upsert (.dau _) _ _) => 6 + 2
  | .metric (.upsert (.funnel ..) _ _) => 8 + 5
  | .cohort .. => 2
  -- `IN` expands to one parameter for each element
  | .countAmong users _ _ => users.length + 2
  | .selectRetention _ => 1
  | .upsertRetention .. => 7 + 6
  | .countSince _ => 1
  | _ => 0

def maxBindParams : Nat := 32767

/-- The service behind `asyncpg`, which rejects a statement with too many parameters
before it is sent. -/
def asyncpg : Machine ReportCmd.Resp Exn Reports Choice ReportEnv :=
  { reports with
    exec := fun i ch w c =>
      reports.exec i (if maxBindParams < bindParams c then .raiseBefore else ch) w c }

/-- One session, in which nothing fails but by the driver. -/
def driverStep (w : Reports) (c : ReportCmd) : Option (Except Exn c.Resp × Reports) :=
  asyncpg.exec 0 .ok w c

/-- Every statement of the run can be sent. -/
def WithinLimit {α : Type} (p : ReportApp α) (w : Reports) : Prop :=
  p.Along driverStep (fun c => bindParams c ≤ maxBindParams) w

section Steps

variable {w : Reports}

theorem sendable {c : ReportCmd} (h : (bindParams c).ble maxBindParams = true) :
    bindParams c ≤ maxBindParams :=
  Nat.le_of_ble_eq_true h

theorem driverStep_eq {c : ReportCmd} (h : bindParams c ≤ maxBindParams) :
    driverStep w c = reportsStep w c := by
  simp only [driverStep, asyncpg, if_neg (Nat.not_lt.mpr h)]
  rfl

theorem WithinLimit.run_eq {α : Type} {p : ReportApp α} (h : WithinLimit p w) :
    p.run driverStep w = p.run reportsStep w :=
  Prog.Along.run_eq (fun _ _ => driverStep_eq) h

end Steps

section Retention

variable {settings : Settings} {w w' : Reports} {d : Day}

theorem withinLimit_retainedOf (users : List UUID)
    (hsize : users.length ≤ 32765) : WithinLimit (retainedOf d users) w := by
  have hbind : ∀ start stop, bindParams (.countAmong users start stop) ≤ maxBindParams := by
    intro start stop
    simp only [bindParams, maxBindParams]
    omega
  unfold WithinLimit retainedOf
  split
  · exact Prog.along_ret _
  · refine Prog.along_perform.mpr ⟨hbind _ _, fun d1 w₁ _ => ?_⟩
    exact Prog.along_perform.mpr ⟨hbind _ _, fun d7 w₂ _ => Prog.along_ret _⟩

theorem withinLimit_iff (settings : Settings) (hw : Quiescent w) (hd : d + 8 ≤ dateMax) :
    WithinLimit (computeRetention settings d) w ↔
      (cohort w.warehouse.events d).length ≤ 32765 := by
  unfold computeRetention
  rw [addDays_of_le hd]
  constructor
  · intro h
    obtain ⟨w₁, hlock, hevents, haborted, -⟩ := lock_ok hw (yyyymmdd d + 2000000)
    have hcohort := cohort_ok haborted d
    rw [hevents] at hcohort
    have h₁ := (Prog.along_perform.mp h).2 () w₁ ((driverStep_eq (sendable rfl)).trans hlock)
    have h₂ := (Prog.along_perform.mp h₁).2 _ w₁ ((driverStep_eq (sendable rfl)).trans hcohort)
    have h₃ := (Prog.along_bind.mp h₂).1
    unfold retainedOf at h₃
    split at h₃
    · omega
    · have hbind := (Prog.along_perform.mp h₃).1
      simp only [bindParams, maxBindParams] at hbind
      omega
  · intro hsize
    refine Prog.along_perform.mpr ⟨sendable rfl, fun _ w₁ hlock => ?_⟩
    refine Prog.along_perform.mpr ⟨sendable rfl, fun users w₂ hcohort => ?_⟩
    rw [driverStep_eq (sendable rfl)] at hlock hcohort
    obtain ⟨hevents, -⟩ := step_lock hlock
    obtain ⟨husers, rfl⟩ := step_cohort hcohort
    have husers : users = cohort w.warehouse.events d := by
      rw [husers, hevents]
      rfl
    refine Prog.along_bind.mpr ⟨withinLimit_retainedOf users (by rw [husers]; exact hsize),
      fun retained w₃ _ => ?_⟩
    refine Prog.along_perform.mpr ⟨sendable rfl, fun now w₄ _ => ?_⟩
    refine Prog.along_perform.mpr ⟨sendable rfl, fun _ w₅ _ => ?_⟩
    exact Prog.along_perform.mpr ⟨sendable rfl, fun _ w₆ _ => Prog.along_ret _⟩

theorem computeRetention_rejected (settings : Settings) (hw : Quiescent w)
    (hd : d + 8 ≤ dateMax) (hsize : 32765 < (cohort w.warehouse.events d).length) :
    ∃ w', (computeRetention settings d).run driverStep w = some (.error .dbApiError, w') := by
  obtain ⟨w₁, hlock, hevents, haborted, -⟩ := lock_ok hw (yyyymmdd d + 2000000)
  rw [← driverStep_eq (sendable rfl)] at hlock
  have hcohort := cohort_ok haborted d
  rw [← driverStep_eq (sendable rfl), hevents] at hcohort
  have hcount : driverStep w₁ (.countAmong (cohort w.warehouse.events d)
      (midnight (d + 1)) (midnight (d + 2))) = some (.error .dbApiError, w₁) := by
    have hlarge : maxBindParams < bindParams (.countAmong (cohort w.warehouse.events d)
        (midnight (d + 1)) (midnight (d + 2))) := by
      simp only [bindParams, maxBindParams]
      omega
    simp only [driverStep, asyncpg, if_pos hlarge]
    rfl
  refine ⟨w₁, ?_⟩
  unfold computeRetention
  rw [Prog.run_perform_ok hlock, addDays_of_le hd, Prog.ofExcept, Prog.ret_bind,
    Prog.run_perform_ok hcohort]
  apply Prog.run_bind_error
  unfold retainedOf
  rw [if_neg (by omega)]
  apply Prog.run_bind_error
  exact (Prog.run_perform _ _).trans hcount

theorem computeRetention_overflows (settings : Settings) (hw : Quiescent w)
    (hd : ¬ d + 8 ≤ dateMax) :
    ∃ w', (computeRetention settings d).run driverStep w = some (.error .overflowError, w') := by
  obtain ⟨w₁, hlock, -⟩ := lock_ok hw (yyyymmdd d + 2000000)
  rw [← driverStep_eq (sendable rfl)] at hlock
  have hraise : addDays d 8 = .error .overflowError := if_neg hd
  refine ⟨w₁, ?_⟩
  unfold computeRetention
  rw [Prog.run_perform_ok hlock, hraise]
  rfl

/-- The retention of a date is computed by statements that can all be sent if and only if
no more than 32765 users are new on it, and it is returned if the calendar goes on for
eight more days. -/
theorem retention_within_limit_iff (settings : Settings) (hw : Quiescent w) (d : Day) :
    (WithinLimit (computeRetention settings d) w ∧
        ∃ snap w', (computeRetention settings d).run driverStep w = some (.ok snap, w')) ↔
      (cohort w.warehouse.events d).length ≤ 32765 ∧ settings.cacheTtlRetention ≠ 0 ∧
        d + 8 ≤ dateMax := by
  by_cases hd : d + 8 ≤ dateMax
  · rw [withinLimit_iff settings hw hd, and_iff_left hd]
    apply and_congr_right
    intro hsize
    rw [((withinLimit_iff settings hw hd).mpr hsize).run_eq]
    constructor
    · rintro ⟨snap, w', hrun⟩
      exact (drafted_retention hrun).ttl
    · intro httl
      exact computeRetention_returns hw httl hd (hsize.trans_lt (by decide))
  · obtain ⟨w₁, hraises⟩ := computeRetention_overflows settings hw hd
    refine iff_of_false ?_ fun h => hd h.2.2
    rintro ⟨-, snap, w', hrun⟩
    cases hraises.symm.trans hrun

end Retention

def arrivals (n : Nat) : Reports :=
  { comeback 0 with
    warehouse := { (comeback 0).warehouse with
      events := (List.range n).map fun u => comeback.visit u 0 } }

theorem quiescent_arrivals (n : Nat) : Quiescent (arrivals n) :=
  ⟨⟨rfl, rfl, rfl⟩, rfl⟩

theorem length_arrivals {n : Nat} (hn : n ≤ 2 ^ 128) :
    (cohort (arrivals n).warehouse.events 0).length = n := by
  have hnodup : ((List.range n).map fun u : Nat => (u : UUID)).Nodup := by
    refine List.nodup_range.map_on fun u hu v hv huv => ?_
    rw [List.mem_range] at hu hv
    have hmod : u % 2 ^ 128 = v % 2 ^ 128 := congrArg BitVec.toNat huv
    rwa [Nat.mod_eq_of_lt (hu.trans_le hn), Nat.mod_eq_of_lt (hv.trans_le hn)] at hmod
  have hsame : ∀ u, u ∈ cohort (arrivals n).warehouse.events 0 ↔
      u ∈ (List.range n).map fun u : Nat => (u : UUID) := by
    intro u
    rw [mem_cohort]
    constructor
    · intro hday
      obtain ⟨t, ht, -⟩ := Option.map_eq_some_iff.mp hday
      obtain ⟨⟨row, hrow, huser, -⟩, -⟩ := firstTs_eq_some.mp ht
      obtain ⟨k, hk, rfl⟩ := List.mem_map.mp hrow
      exact List.mem_map.mpr ⟨k, hk, Option.some.inj huser⟩
    · intro hu
      obtain ⟨k, hk, rfl⟩ := List.mem_map.mp hu
      have hfirst : firstTs (arrivals n).warehouse.events (k : UUID) = some 0 :=
        firstTs_eq_some.mpr ⟨⟨comeback.visit k 0, List.mem_map.mpr ⟨k, hk, rfl⟩, rfl, rfl⟩,
          fun _ _ _ => Nat.zero_le _⟩
      rw [hfirst]
      rfl
  have hperm := (List.perm_ext_iff_of_nodup (nodup_cohort _ _) hnodup).mpr hsame
  simpa using hperm.length_eq

/-- One new user too many, and the driver refuses the first count. -/
theorem retention_refused :
    ¬WithinLimit (computeRetention {} 0) (arrivals 32766) ∧
      ∃ w', (computeRetention {} 0).run driverStep (arrivals 32766) =
        some (.error .dbApiError, w') := by
  have hsize : (cohort (arrivals 32766).warehouse.events 0).length = 32766 :=
    length_arrivals (by norm_num)
  constructor
  · rw [withinLimit_iff {} (quiescent_arrivals _) (by decide), hsize]
    omega
  · exact computeRetention_rejected {} (quiescent_arrivals _) (by decide) (by omega)

theorem retention_within_limit_iff_arrivals :
    WithinLimit (computeRetention {} 0) (arrivals 2) ∧
      ∃ snap w', (computeRetention {} 0).run driverStep (arrivals 2) = some (.ok snap, w') :=
  (retention_within_limit_iff {} (quiescent_arrivals 2) 0).mpr
    ⟨by rw [length_arrivals (by norm_num)]; omega, by decide, by decide⟩

end EventAnalytics.Workers
