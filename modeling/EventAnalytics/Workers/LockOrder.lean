import EventAnalytics.Library.Deadlock
import EventAnalytics.Library.RelyGuarantee
import EventAnalytics.Workers.MetricJobs

/-! Whether metric transactions can wait for each other in a circle. The keys of the
three kinds of locks are dates, offset by a million for the funnel and by two for the
retention, and the summary takes one of each kind. -/
namespace EventAnalytics.Workers

open Library Library.Discipline Db Services

def keysOf (i : Nat) (w : Reports) : List Int :=
  (w.warehouse.locks.filter fun jk => jk.1 = i).map Prod.snd

def keyOf : Period → Int
  | .dau d => yyyymmdd d
  | .funnel a _ => yyyymmdd a + 1000000

def retentionKey (cohortDate : Day) : Int :=
  yyyymmdd cohortDate + 2000000

/-- What a transaction may have to wait for: a lock, or a row that another one has
written. -/
inductive Resource
  | key (k : Int)
  | snapshot (p : Period)
  | retention (cohortDate : Day)
  deriving DecidableEq

def wanted : ReportCmd → Option Resource
  | .metric (.advisoryLock k) => some (.key k)
  | .metric (.upsert p _ _) => some (.snapshot p)
  | .upsertRetention d _ => some (.retention d)
  | _ => none

def Holds (w : Reports) (i : Nat) : Resource → Prop
  | .key k => k ∈ keysOf i w
  | .snapshot p => ∃ row, (i, ⟨p, row⟩) ∈ w.warehouse.written
  | .retention d => ∃ columns, (i, d, columns) ∈ w.retentionWritten

def closing : ReportCmd → Bool
  | .metric .commit | .metric .rollback => true
  | _ => false

section Steps

variable {w w' : Reports} {i : Nat}

theorem mem_keysOf {k : Int} : k ∈ keysOf i w ↔ (i, k) ∈ w.warehouse.locks := by
  simp [keysOf]

/-- A session stays within what it has locked and written. -/
structure Within (w w' : Reports) : Prop where
  locks : w'.warehouse.locks = w.warehouse.locks
  written : w'.warehouse.written ⊆ w.warehouse.written
  retention : w'.retentionWritten ⊆ w.retentionWritten
  clock : w'.warehouse.clock = w.warehouse.clock

/-- What a command does to locks and open writes. -/
inductive Footprint (i : Nat) (w : Reports) : ReportCmd → Reports → Prop
  | within {c : ReportCmd} {w' : Reports} (h : Within w w') : Footprint i w c w'
  | locked {k : Int} {w' : Reports} (hfree : ∀ j, k ∈ keysOf j w → j = i)
      (hlocks : w'.warehouse.locks = w.warehouse.locks ++ [(i, k)])
      (hwritten : w'.warehouse.written = w.warehouse.written)
      (hretention : w'.retentionWritten = w.retentionWritten)
      (hclock : w'.warehouse.clock = w.warehouse.clock) :
      Footprint i w (.metric (.advisoryLock k)) w'
  | wrote {p : Period} {insert update : p.Row} {row : p.Row} {w' : Reports}
      (hlocks : w'.warehouse.locks = w.warehouse.locks)
      (hwritten : w'.warehouse.written = (i, ⟨p, row⟩) :: w.warehouse.written)
      (hretention : w'.retentionWritten = w.retentionWritten)
      (hclock : w'.warehouse.clock = w.warehouse.clock) :
      Footprint i w (.metric (.upsert p insert update)) w'
  | wroteRetention {d : Day} {row : RetentionRow} {columns : RetentionColumns} {w' : Reports}
      (hwarehouse : w'.warehouse = w.warehouse)
      (hretention : w'.retentionWritten = (i, d, columns) :: w.retentionWritten) :
      Footprint i w (.upsertRetention d row) w'
  | closed {c : ReportCmd} {w' : Reports} (hclosing : closing c = true)
      (hlocks : w'.warehouse.locks = w.warehouse.dropLocks i)
      (hwritten : w'.warehouse.written = w.warehouse.dropWrites i)
      (hretention : w'.retentionWritten = (w.dropRetention i).retentionWritten)
      (hclock : w'.warehouse.clock = w.warehouse.clock) :
      Footprint i w c w'

theorem Within.refl (w : Reports) : Within w w :=
  ⟨rfl, fun _ h => h, fun _ h => h, rfl⟩

theorem within_abortTx (w : Reports) (i : Nat) : Within w (w.abortTx i) :=
  ⟨rfl, List.filter_subset_self _, List.filter_subset_self _, rfl⟩

theorem free_of_any {key : Int} (hfree : ¬ (w.warehouse.locks.any fun jk => jk.1 ≠ i ∧ jk.2 = key)
    = true) {j : Nat} (hj : key ∈ keysOf j w) : j = i := by
  by_contra hne
  exact hfree (List.any_eq_true.mpr ⟨(j, key), mem_keysOf.mp hj, by simpa using hne⟩)

theorem footprint_warehouse {ch : Choice} {c : MetricsCmd} {r : Except Exn c.Resp}
    (hexec : w.warehouseExec i ch c = some (r, w')) : Footprint i w (.metric c) w' := by
  obtain ⟨⟨r', v⟩, heffect, hw⟩ := Option.map_eq_some_iff.mp hexec
  cases hw
  cases ch with
  | ok =>
      cases c <;> simp only [warehouse, metricsEffect] at heffect
      case now | cacheGet =>
        cases heffect
        exact .within (.refl w)
      case cacheSet =>
        split at heffect <;> cases heffect <;> exact .within ⟨rfl, fun _ h => h, fun _ h => h, rfl⟩
      case advisoryLock key =>
        split at heffect
        · cases heffect
          exact .within (.refl w)
        · split at heffect <;> cases heffect
          rename_i hfree
          exact .locked (fun j => free_of_any hfree) rfl rfl rfl rfl
      case countUsers | select =>
        split at heffect <;> cases heffect <;> exact .within (.refl w)
      case upsert =>
        split at heffect
        · cases heffect
          exact .within (.refl w)
        · split at heffect <;> cases heffect
          exact .wrote rfl rfl rfl rfl
      case commit =>
        cases heffect
        exact .closed rfl rfl rfl rfl rfl
      case rollback =>
        cases heffect
        exact .closed rfl rfl rfl rfl rfl
  | raiseBefore =>
      cases c
      case rollback =>
        cases heffect
        exact .closed rfl rfl rfl rfl rfl
      all_goals
        cases heffect
        exact .within (.refl w)
  | raiseAfter =>
      cases c <;> simp only [warehouse, metricsEffect, MetricsCmd.statement] at heffect
      case rollback | commit =>
        cases heffect
        exact .closed rfl rfl rfl rfl rfl
      case cacheSet =>
        split at heffect
        · contradiction
        · split at heffect <;> cases heffect <;>
            exact .within ⟨rfl, fun _ h => h, fun _ h => h, rfl⟩
      case now | cacheGet =>
        cases heffect
        exact .within (.refl w)
      all_goals
        cases heffect
        exact .within (within_abortTx w i)

theorem footprint_metric {ch : Choice} {c : MetricsCmd} {r : Except Exn c.Resp}
    (hexec : w.metricExec i ch c = some (r, w')) : Footprint i w (.metric c) w' := by
  cases c
  case upsert p insert update =>
    simp only [Reports.metricExec] at hexec
    split at hexec
    · cases footprint_warehouse hexec with
      | within h => exact .within h
      | wrote hlocks hwritten hretention hclock => exact .wrote hlocks hwritten hretention hclock
      | closed hclosing => cases hclosing
    · cases hexec
      split
      · exact .within (.refl w)
      · exact .within (within_abortTx w i)
  all_goals exact footprint_warehouse hexec

theorem footprint_effect {c : ReportCmd} {r : Except Exn c.Resp}
    (heffect : reportsEffect i w c = some (r, w')) : Footprint i w c w' := by
  cases c
  case metric c => exact footprint_metric heffect
  case upsertRetention d row =>
    simp only [reportsEffect] at heffect
    split at heffect
    · cases heffect
      exact .within (.refl w)
    · split at heffect
      · cases heffect
        exact .within (within_abortTx w i)
      · split at heffect <;> cases heffect
        exact .wroteRetention rfl rfl
  case retentionGet | pfCount | epmGet =>
    cases heffect
    exact .within (.refl w)
  all_goals
    simp only [reportsEffect] at heffect
    split at heffect <;> cases heffect <;> exact .within ⟨rfl, fun _ h => h, fun _ h => h, rfl⟩

theorem footprint_exec {ch : Choice} {c : ReportCmd} {r : Except Exn c.Resp}
    (hexec : reports.exec i ch w c = some (r, w')) : Footprint i w c w' := by
  cases c
  case metric c => exact footprint_metric hexec
  all_goals
    cases ch
    case ok => exact footprint_effect hexec
    case raiseBefore =>
      cases hexec
      exact .within (.refl w)
    case raiseAfter =>
      simp only [reports, ReportCmd.statement, if_true, Bool.false_eq_true, if_false] at hexec
      cases hexec
      first
        | exact .within (within_abortTx w i)
        | (cases heffect : reportsEffect i w _ with
            | none => exact .within (.refl w)
            | some rw => exact footprint_effect heffect)

/-- Sessions write under their locks, and nobody else holds these. -/
structure Locked (w : Reports) : Prop where
  exclusive : ∀ i j k, k ∈ keysOf i w → k ∈ keysOf j w → i = j
  ascending : ∀ i, (keysOf i w).Pairwise (· < ·)
  written : ∀ i p row, (i, ⟨p, row⟩) ∈ w.warehouse.written → keyOf p ∈ keysOf i w
  retention : ∀ i d columns, (i, d, columns) ∈ w.retentionWritten → retentionKey d ∈ keysOf i w

/-- What a session relies on: its locks stay its own, and time does not go back. -/
structure LocksKept (i : Nat) (w w' : Reports) : Prop where
  keys : keysOf i w' = keysOf i w
  clock : w.warehouse.clock ≤ w'.warehouse.clock

/-- A lock is taken above all that the session holds, and a snapshot is written under
its lock. -/
def lockDuty (i : Nat) (w : Reports) : ReportCmd → Prop
  | .metric (.advisoryLock k) => ∀ k' ∈ keysOf i w, k' < k
  | .metric (.upsert p _ _) => keyOf p ∈ keysOf i w
  | .upsertRetention d _ => retentionKey d ∈ keysOf i w
  | _ => True

theorem keysOf_congr (hlocks : w'.warehouse.locks = w.warehouse.locks) (j : Nat) :
    keysOf j w' = keysOf j w := by
  simp only [keysOf, hlocks]

theorem keysOf_dropped_self (hlocks : w'.warehouse.locks = w.warehouse.dropLocks i) :
    keysOf i w' = [] := by
  simp [keysOf, hlocks, Warehouse.dropLocks]

theorem keysOf_dropped_ne (hlocks : w'.warehouse.locks = w.warehouse.dropLocks i) {j : Nat}
    (hj : j ≠ i) : keysOf j w' = keysOf j w := by
  simp only [keysOf, hlocks, Warehouse.dropLocks, List.filter_filter]
  congr 1
  apply List.filter_congr
  intro jk _
  by_cases hjk : jk.1 = j <;> simp [hjk, hj]

theorem keysOf_locked_self {k : Int} (hlocks : w'.warehouse.locks = w.warehouse.locks ++ [(i, k)]) :
    keysOf i w' = keysOf i w ++ [k] := by
  simp [keysOf, hlocks]

theorem keysOf_locked_ne {k : Int} (hlocks : w'.warehouse.locks = w.warehouse.locks ++ [(i, k)])
    {j : Nat} (hj : j ≠ i) : keysOf j w' = keysOf j w := by
  simp [keysOf, hlocks, Ne.symm hj]

theorem Locked.keep (h : Locked w) (hlocks : w'.warehouse.locks = w.warehouse.locks)
    (hwritten : ∀ j p row, (j, ⟨p, row⟩) ∈ w'.warehouse.written →
      (j, ⟨p, row⟩) ∈ w.warehouse.written ∨ keyOf p ∈ keysOf j w)
    (hretention : ∀ j d columns, (j, d, columns) ∈ w'.retentionWritten →
      (j, d, columns) ∈ w.retentionWritten ∨ retentionKey d ∈ keysOf j w) : Locked w' := by
  have hkeys := keysOf_congr hlocks
  refine ⟨fun j k key => ?_, fun j => ?_, fun j p row hrow => ?_, fun j d columns hrow => ?_⟩
  · rw [hkeys, hkeys]
    exact h.exclusive j k key
  · rw [hkeys]
    exact h.ascending j
  · rw [hkeys]
    exact (hwritten j p row hrow).elim (h.written j p row) id
  · rw [hkeys]
    exact (hretention j d columns hrow).elim (h.retention j d columns) id

theorem Locked.within (h : Locked w) (hwithin : Within w w') :
    Locked w' ∧ ∀ j, LocksKept j w w' :=
  ⟨h.keep hwithin.locks (fun _ _ _ hrow => .inl (hwithin.written hrow)) fun _ _ _ hrow =>
      .inl (hwithin.retention hrow),
    fun j => ⟨keysOf_congr hwithin.locks j, hwithin.clock.ge⟩⟩

theorem Locked.lock (h : Locked w) {key : Int} (hduty : ∀ k' ∈ keysOf i w, k' < key)
    (hfree : ∀ j, key ∈ keysOf j w → j = i)
    (hlocks : w'.warehouse.locks = w.warehouse.locks ++ [(i, key)])
    (hwritten : w'.warehouse.written = w.warehouse.written)
    (hretention : w'.retentionWritten = w.retentionWritten) : Locked w' := by
  have hself := keysOf_locked_self hlocks
  have hothers : ∀ {j}, j ≠ i → keysOf j w' = keysOf j w := keysOf_locked_ne hlocks
  have hmore : ∀ j k, k ∈ keysOf j w → k ∈ keysOf j w' := by
    intro j k hk
    by_cases hj : j = i
    · subst hj
      rw [hself]
      exact List.mem_append_left _ hk
    · rwa [hothers hj]
  have hnew : ∀ j k, k ∈ keysOf j w' → k ∈ keysOf j w ∨ j = i ∧ k = key := by
    intro j k hk
    by_cases hj : j = i
    · subst hj
      rw [hself, List.mem_append, List.mem_singleton] at hk
      exact hk.imp_right fun hk => ⟨rfl, hk⟩
    · rw [hothers hj] at hk
      exact .inl hk
  refine ⟨fun j l k hj hl => ?_, fun j => ?_, fun j p row hrow => ?_, fun j d columns hrow => ?_⟩
  · rcases hnew j k hj with hj | ⟨rfl, rfl⟩
    · rcases hnew l k hl with hl | ⟨rfl, rfl⟩
      · exact h.exclusive j l k hj hl
      · exact hfree j hj
    · rcases hnew l k hl with hl | ⟨hl, -⟩
      · exact (hfree l hl).symm
      · exact hl.symm
  · by_cases hj : j = i
    · subst hj
      rw [hself, List.pairwise_append]
      exact ⟨h.ascending j, List.pairwise_singleton _ _, fun k' hk' k hk =>
        List.mem_singleton.mp hk ▸ hduty k' hk'⟩
    · rw [hothers hj]
      exact h.ascending j
  · exact hmore j _ (h.written j p row (hwritten ▸ hrow))
  · exact hmore j _ (h.retention j d columns (hretention ▸ hrow))

theorem Locked.close (h : Locked w) (hlocks : w'.warehouse.locks = w.warehouse.dropLocks i)
    (hwritten : w'.warehouse.written = w.warehouse.dropWrites i)
    (hretention : w'.retentionWritten = (w.dropRetention i).retentionWritten) : Locked w' := by
  have hself := keysOf_dropped_self hlocks
  have hothers : ∀ {j}, j ≠ i → keysOf j w' = keysOf j w := keysOf_dropped_ne hlocks
  have hne : ∀ j k, k ∈ keysOf j w' → j ≠ i := by
    rintro j k hk rfl
    simp [hself] at hk
  refine ⟨fun j l k hj hl => ?_, fun j => ?_, fun j p row hrow => ?_, fun j d columns hrow => ?_⟩
  · rw [hothers (hne j k hj)] at hj
    rw [hothers (hne l k hl)] at hl
    exact h.exclusive j l k hj hl
  · by_cases hj : j = i
    · subst hj
      simp [hself]
    · rw [hothers hj]
      exact h.ascending j
  · simp only [hwritten, Warehouse.dropWrites, List.mem_filter, decide_eq_true_eq] at hrow
    rw [hothers hrow.2]
    exact h.written j p row hrow.1
  · simp only [hretention, Reports.dropRetention, List.mem_filter, decide_eq_true_eq] at hrow
    rw [hothers hrow.2]
    exact h.retention j d columns hrow.1

theorem Footprint.clock {c : ReportCmd} (h : Footprint i w c w') :
    w'.warehouse.clock = w.warehouse.clock := by
  cases h with
  | within hwithin => exact hwithin.clock
  | locked _ _ _ _ hclock => exact hclock
  | wrote _ _ _ hclock => exact hclock
  | wroteRetention hwarehouse _ => rw [hwarehouse]
  | closed _ _ _ _ hclock => exact hclock

theorem Footprint.keys_ne {c : ReportCmd} (h : Footprint i w c w') {j : Nat} (hj : j ≠ i) :
    keysOf j w' = keysOf j w := by
  cases h with
  | within hwithin => exact keysOf_congr hwithin.locks j
  | locked _ hlocks => exact keysOf_locked_ne hlocks hj
  | wrote hlocks => exact keysOf_congr hlocks j
  | wroteRetention hwarehouse => exact keysOf_congr (congrArg Warehouse.locks hwarehouse) j
  | closed _ hlocks => exact keysOf_dropped_ne hlocks hj

theorem Footprint.keys_self {c : ReportCmd} (h : Footprint i w c w') :
    keysOf i w <+: keysOf i w' ∨ closing c = true := by
  cases h with
  | within hwithin => exact .inl (keysOf_congr hwithin.locks i ▸ List.prefix_refl _)
  | locked _ hlocks => exact .inl (keysOf_locked_self hlocks ▸ List.prefix_append _ _)
  | wrote hlocks => exact .inl (keysOf_congr hlocks i ▸ List.prefix_refl _)
  | wroteRetention hwarehouse =>
      exact .inl (keysOf_congr (congrArg Warehouse.locks hwarehouse) i ▸ List.prefix_refl _)
  | closed hclosing => exact .inr hclosing

theorem locks_env {e : ReportEnv} (henv : reports.env e w = some w') :
    w'.warehouse.locks = w.warehouse.locks := by
  cases e with
  | visit d n =>
      cases henv
      rfl
  | metric e =>
      obtain ⟨v, hv, rfl⟩ := Option.map_eq_some_iff.mp henv
      cases e <;> cases hv <;> rfl

theorem Locked.step (h : Locked w) {c : ReportCmd} (hduty : lockDuty i w c)
    (hstep : Footprint i w c w') : Locked w' ∧ ∀ j, j ≠ i → LocksKept j w w' := by
  refine ⟨?_, fun j hj => ⟨hstep.keys_ne hj, hstep.clock.ge⟩⟩
  cases hstep with
  | within hwithin => exact (h.within hwithin).1
  | locked hfree hlocks hwritten hretention _ => exact h.lock hduty hfree hlocks hwritten hretention
  | wrote hlocks hwritten hretention _ =>
      refine h.keep hlocks (fun j p row hrow => ?_) fun j d columns hrow => .inl (hretention ▸ hrow)
      rw [hwritten] at hrow
      rcases List.mem_cons.mp hrow with heq | hrow
      · cases heq
        exact .inr hduty
      · exact .inl hrow
  | wroteRetention hwarehouse hretention =>
      refine h.keep (congrArg Warehouse.locks hwarehouse) (fun j p row hrow => .inl
        (hwarehouse ▸ hrow)) fun j d columns hrow => ?_
      rw [hretention] at hrow
      rcases List.mem_cons.mp hrow with heq | hrow
      · cases heq
        exact .inr hduty
      · exact .inl hrow
  | closed _ hlocks hwritten hretention _ => exact h.close hlocks hwritten hretention

end Steps

def lockOrder : Discipline ReportCmd.Resp Exn Reports Choice ReportEnv where
  machine := reports
  policy := .any
  inv := Locked
  rely := LocksKept
  duty := lockDuty
  rely_refl := fun _ _ => ⟨rfl, le_rfl⟩
  rely_trans := fun _ _ _ _ hab hbc => ⟨hbc.keys.trans hab.keys, hab.clock.trans hbc.clock⟩
  step_sound := fun _ _ _ _ _ _ _ hinv hduty hexec => hinv.step hduty (footprint_exec hexec)
  crash_sound := fun _ _ _ _ hinv =>
    ⟨hinv.close rfl rfl rfl, fun _ hj => ⟨keysOf_dropped_ne rfl hj, le_rfl⟩⟩
  env_sound := by
    intro e w w' _ hinv henv
    cases e with
    | visit d n =>
        cases henv
        exact hinv.within ⟨rfl, fun _ h => h, fun _ h => h, rfl⟩
    | metric e =>
        obtain ⟨v, hv, rfl⟩ := Option.map_eq_some_iff.mp henv
        cases e with
        | tick ms =>
            cases hv
            exact ⟨⟨hinv.exclusive, hinv.ascending, hinv.written, hinv.retention⟩, fun _ =>
              ⟨rfl, Nat.le_add_right ..⟩⟩
        | store row =>
            cases hv
            exact hinv.within ⟨rfl, fun _ h => h, fun _ h => h, rfl⟩

section Programs

variable {settings : Settings} {i : Nat} {w w' : Reports}

/-- An assertion about the locks of the session and about the past. -/
def Lasting (i : Nat) (P : Reports → Prop) : Prop :=
  ∀ w w', LocksKept i w w' → P w → P w'

/-- All locks of the session are below a key, or at most there. -/
def Below (i : Nat) (key : Int) (w : Reports) : Prop :=
  ∀ k ∈ keysOf i w, k < key

def UpTo (i : Nat) (key : Int) (w : Reports) : Prop :=
  ∀ k ∈ keysOf i w, k ≤ key

theorem lasting_below (key : Int) : Lasting i (Below i key) := by
  intro w w' hkept h k hk
  exact h k (hkept.keys ▸ hk)

theorem lasting_upTo (key : Int) : Lasting i (UpTo i key) := by
  intro w w' hkept h k hk
  exact h k (hkept.keys ▸ hk)

theorem lasting_after (t : Nat) : Lasting i fun w => t ≤ w.warehouse.clock :=
  fun _ _ hkept h => h.trans hkept.clock

theorem Lasting.and {P Q : Reports → Prop} (hP : Lasting i P) (hQ : Lasting i Q) :
    Lasting i fun w => P w ∧ Q w :=
  fun w w' hkept h => ⟨hP w w' hkept h.1, hQ w w' hkept h.2⟩

theorem Below.upTo {key : Int} (h : Below i key w) : UpTo i key w :=
  fun k hk => (h k hk).le

def lockless : ReportCmd → Bool
  | .metric (.advisoryLock _) => false
  | c => !closing c

theorem closing_of_lockless {c : ReportCmd} (h : lockless c = true) : closing c = false := by
  cases c with
  | metric c => cases c <;> first | rfl | exact absurd h (by decide)
  | _ => rfl

theorem wp_lockless {c : ReportCmd} {P : Reports → Prop} (hP : Lasting i P)
    (hlockless : lockless c = true) (hduty : lockDuty i w c) (h : P w) :
    lockOrder.wp i (query c) (ends (fun _ => P) fun _ => P) w := by
  apply wp_perform hduty (fun _ _ _ => trivial)
  intro ch r w₁ _ hexec w₂ hlater
  have hkept : LocksKept i w w₁ := by
    cases footprint_exec hexec with
    | within hwithin => exact ⟨keysOf_congr hwithin.locks i, hwithin.clock.ge⟩
    | locked => cases hlockless
    | wrote hlocks _ _ hclock => exact ⟨keysOf_congr hlocks i, hclock.ge⟩
    | wroteRetention hwarehouse _ =>
        exact ⟨keysOf_congr (congrArg Warehouse.locks hwarehouse) i,
          (congrArg Warehouse.clock hwarehouse).ge⟩
    | closed hclosing => rw [closing_of_lockless hlockless] at hclosing; cases hclosing
  have hlast : P w₂ := hP w₁ w₂ hlater.2 (hP w w₁ hkept h)
  cases r with
  | ok a => exact hlast
  | error e => exact hlast

theorem wp_now_lasting {P : Reports → Prop} (hP : Lasting i P) (h : P w) :
    lockOrder.wp i (query (.metric .now))
      (ends (fun t w' => P w' ∧ t ≤ w'.warehouse.clock ∧ w.warehouse.clock ≤ t) fun _ _ => True)
      w := by
  apply wp_perform trivial (fun _ _ _ => trivial)
  intro ch r w₁ _ hexec w₂ hlater
  cases r with
  | error e => trivial
  | ok t =>
      have hnow : w₁ = w ∧ t = w.warehouse.clock := by
        cases ch <;> cases hexec
        exact ⟨rfl, rfl⟩
      obtain ⟨rfl, rfl⟩ := hnow
      exact ⟨hP _ _ hlater.2 h, hlater.2.clock, le_rfl⟩

theorem locks_of_granted {key : Int} {ch : Choice} {u : Unit}
    (hexec : reports.exec i ch w (.metric (.advisoryLock key)) = some (.ok u, w')) :
    w'.warehouse.locks = w.warehouse.locks ++ [(i, key)] := by
  obtain ⟨⟨r, v⟩, heffect, hw⟩ := Option.map_eq_some_iff.mp hexec
  cases hw
  cases ch with
  | ok =>
      simp only [warehouse, metricsEffect] at heffect
      split at heffect
      · cases heffect
      · split at heffect <;> cases heffect
        rfl
  | raiseBefore => cases heffect
  | raiseAfter => cases heffect

theorem wp_lock {key : Int} (h : Below i key w) :
    lockOrder.wp i (query (.metric (.advisoryLock key)))
      (ends (fun _ w' => UpTo i key w' ∧ key ∈ keysOf i w') fun _ _ => True) w := by
  apply wp_perform h (fun _ _ _ => trivial)
  intro ch r w₁ _ hexec w₂ hlater
  cases r with
  | error e => trivial
  | ok u =>
      have hkeys : keysOf i w₂ = keysOf i w ++ [key] :=
        hlater.2.keys.trans (keysOf_locked_self (locks_of_granted hexec))
      refine ⟨fun k hk => ?_, ?_⟩
      · rw [hkeys, List.mem_append, List.mem_singleton] at hk
        exact hk.elim (fun hk => (h k hk).le) Eq.le
      · rw [hkeys]
        exact List.mem_append_right _ (List.mem_singleton_self _)

theorem lasting_holding (key : Int) :
    Lasting i fun w => UpTo i key w ∧ key ∈ keysOf i w :=
  (lasting_upTo key).and fun _ _ hkept h => hkept.keys ▸ h

theorem wp_step {c : ReportCmd} {P : Reports → Prop} (hP : Lasting i P)
    (hlockless : lockless c = true) (hduty : lockDuty i w c) (h : P w) :
    lockOrder.wp i (query c) (ends (fun _ => P) fun _ _ => True) w :=
  wp_ends_mono (fun _ _ h => h) (fun _ _ _ => trivial) (wp_lockless hP hlockless hduty h)

theorem wp_ask {c : MetricsCmd} {Q : Outcome Exn c.Resp → Reports → Prop}
    (h : lockOrder.wp i (query (.metric c)) Q w) : lockOrder.wp i (inReports (ask c)) Q w := by
  rw [inReports_ask]
  exact h

theorem wp_askStep {c : MetricsCmd} {P : Reports → Prop} (hP : Lasting i P)
    (hlockless : lockless (.metric c) = true) (hduty : lockDuty i w (.metric c)) (h : P w) :
    lockOrder.wp i (inReports (ask c)) (ends (fun _ => P) fun _ _ => True) w :=
  wp_ask (wp_step hP hlockless hduty h)

theorem wp_computeDau_ascending (d : Day) (h : Below i (yyyymmdd d) w) :
    lockOrder.wp i (inReports (computeDau settings d))
      (ends (fun _ => UpTo i (yyyymmdd d)) fun _ _ => True) w := by
  have hlasting := lasting_holding (i := i) (yyyymmdd d)
  simp only [computeDau, inReports_bind]
  refine wp_seq (wp_ask (wp_lock h)) fun _ w₁ h₁ => ?_
  refine wp_seq (wp_askStep hlasting rfl trivial h₁) fun dau w₂ h₂ => ?_
  refine wp_seq (wp_askStep hlasting rfl trivial h₂) fun insertedAt w₃ h₃ => ?_
  refine wp_seq (wp_askStep hlasting rfl trivial h₃) fun updatedAt w₄ h₄ => ?_
  refine wp_seq (wp_askStep hlasting rfl h₄.2 h₄) fun _ w₅ h₅ => ?_
  refine wp_seq (wp_askStep hlasting rfl trivial h₅) fun cachedAt w₆ h₆ => ?_
  exact wp_seq (wp_askStep hlasting rfl trivial h₆) fun _ w₇ h₇ => h₇.1

theorem wp_computeFunnel (a b : Day) (h : Below i (yyyymmdd a + 1000000) w) :
    lockOrder.wp i (inReports (computeFunnel settings a b))
      (ends (fun _ => UpTo i (yyyymmdd a + 1000000)) fun _ _ => True) w := by
  have hlasting := lasting_holding (i := i) (yyyymmdd a + 1000000)
  simp only [computeFunnel, inReports_bind]
  refine wp_seq (wp_ask (wp_lock h)) fun _ w₁ h₁ => ?_
  refine wp_seq (wp_askStep hlasting rfl trivial h₁) fun view w₂ h₂ => ?_
  refine wp_seq (wp_askStep hlasting rfl trivial h₂) fun search w₃ h₃ => ?_
  refine wp_seq (wp_askStep hlasting rfl trivial h₃) fun cart w₄ h₄ => ?_
  refine wp_seq (wp_askStep hlasting rfl trivial h₄) fun order w₅ h₅ => ?_
  refine wp_seq (wp_askStep hlasting rfl trivial h₅) fun computedAt w₆ h₆ => ?_
  refine wp_seq (wp_askStep hlasting rfl h₆.2 h₆) fun _ w₇ h₇ => ?_
  exact wp_seq (wp_askStep hlasting rfl trivial h₇) fun _ w₈ h₈ => h₈.1

theorem wp_after {α : Type} {p : ReportApp α} {R : α → Reports → Prop}
    {E : Exn → Reports → Prop} {t : Nat} (hp : lockOrder.wp i p (ends R E) w)
    (ht : t ≤ w.warehouse.clock) :
    lockOrder.wp i p (ends (fun a w' => R a w' ∧ t ≤ w'.warehouse.clock) E) w :=
  wp_frame (fun _ _ _ _ _ hexec h => (footprint_exec hexec).clock ▸ h)
    (fun _ _ hkept h => h.trans hkept.clock) hp ht

theorem wp_retainedOf {P : Reports → Prop} (hP : Lasting i P) (d : Day) (cohortIds : List UUID)
    (h : P w) : lockOrder.wp i (retainedOf d cohortIds) (ends (fun _ => P) fun _ _ => True) w := by
  unfold retainedOf
  split
  · exact h
  · refine wp_seq (wp_step hP rfl trivial h) fun d1 w₁ h₁ => ?_
    exact wp_seq (wp_step hP rfl trivial h₁) fun d7 w₂ h₂ => h₂

theorem wp_computeRetention (d : Day) (h : Below i (retentionKey d) w) :
    lockOrder.wp i (computeRetention settings d)
      (ends (fun _ => UpTo i (retentionKey d)) fun _ _ => True) w := by
  have hlasting := lasting_holding (i := i) (retentionKey d)
  refine wp_seq (wp_lock h) fun _ w₁ h₁ => ?_
  refine wp_seq_ofExcept (fun _ _ => trivial) fun _ _ => ?_
  refine wp_seq (wp_step hlasting rfl trivial h₁) fun cohortIds w₂ h₂ => ?_
  refine wp_seq (wp_retainedOf hlasting d cohortIds h₂) fun retained w₃ h₃ => ?_
  refine wp_seq (wp_step hlasting rfl trivial h₃) fun now w₄ h₄ => ?_
  refine wp_seq (wp_step hlasting rfl h₄.2 h₄) fun _ w₅ h₅ => ?_
  exact wp_seq (wp_step hlasting rfl trivial h₅) fun _ w₆ h₆ => h₆.1

theorem wp_getDau_ascending (d : Day) (h : Below i (yyyymmdd d) w) :
    lockOrder.wp i (inReports (getDau settings (some d)))
      (ends (fun _ => UpTo i (yyyymmdd d)) fun _ _ => True) w := by
  have hbelow := lasting_below (i := i) (yyyymmdd d)
  simp only [getDau, Prog.pure_eq, Prog.ret_bind, inReports_bind]
  refine wp_seq (wp_askStep hbelow rfl trivial h) fun cached w₁ h₁ => ?_
  cases cached with
  | some data => exact h₁.upTo
  | none =>
      simp only [inReports_bind]
      refine wp_seq (wp_askStep hbelow rfl trivial h₁) fun found w₂ h₂ => ?_
      cases found with
      | some row =>
          simp only [inReports_bind]
          exact wp_seq (wp_askStep hbelow rfl trivial h₂) fun _ w₃ h₃ => h₃.upTo
      | none =>
          simp only [inReports_bind]
          refine wp_seq (wp_computeDau_ascending d h₂) fun dau w₃ h₃ => ?_
          exact wp_seq (wp_askStep (lasting_upTo _) rfl trivial h₃) fun _ w₄ h₄ => h₄

def funnelStart (windowStart windowEnd : Option Day) (t : Nat) : Day :=
  windowStart.getD (windowEnd.getD (dateOf t) - 6)

theorem wp_getFunnel {windowStart windowEnd : Option Day}
    (h : ∀ t, w.warehouse.clock ≤ t →
      Below i (yyyymmdd (funnelStart windowStart windowEnd t) + 1000000) w) :
    lockOrder.wp i (inReports (getFunnel settings windowStart windowEnd))
      (ends (fun _ w' => ∃ t, t ≤ w'.warehouse.clock ∧
        UpTo i (yyyymmdd (funnelStart windowStart windowEnd t) + 1000000) w') fun _ _ => True)
      w := by
  have hkeys : Lasting i fun w' => keysOf i w' = keysOf i w :=
    fun _ _ hkept h => hkept.keys.trans h
  simp only [getFunnel, inReports_bind]
  refine wp_seq (wp_ask (wp_now_lasting hkeys rfl)) fun t w₁ h₁ => ?_
  have hlater : ∀ w', t ≤ w'.warehouse.clock →
      UpTo i (yyyymmdd (funnelStart windowStart windowEnd t) + 1000000) w' →
      ∃ t, t ≤ w'.warehouse.clock ∧
        UpTo i (yyyymmdd (funnelStart windowStart windowEnd t) + 1000000) w' :=
    fun w' hclock hupTo => ⟨t, hclock, hupTo⟩
  have hbelow : Below i (yyyymmdd (funnelStart windowStart windowEnd t) + 1000000) w₁ :=
    fun k hk => h t h₁.2.2 k (h₁.1 ▸ hk)
  have hlasting := (lasting_below (i := i)
    (yyyymmdd (funnelStart windowStart windowEnd t) + 1000000)).and (lasting_after t)
  refine wp_seq (wp_askStep hlasting rfl trivial ⟨hbelow, h₁.2.1⟩) fun cached w₂ h₂ => ?_
  cases cached with
  | some data => exact hlater _ h₂.2 h₂.1.upTo
  | none =>
      simp only [inReports_bind]
      refine wp_seq (wp_askStep hlasting rfl trivial h₂) fun found w₃ h₃ => ?_
      cases found with
      | some row => exact hlater _ h₃.2 h₃.1.upTo
      | none =>
          simp only [inReports_bind]
          refine wp_seq (wp_after (wp_computeFunnel _ _ h₃.1) h₃.2) fun snap w₄ h₄ => ?_
          exact hlater _ h₄.2 h₄.1

theorem wp_getRetention {cohortDate : Option Day}
    (h : ∀ t, w.warehouse.clock ≤ t → Below i (retentionKey (cohortDate.getD (dateOf t - 8))) w) :
    lockOrder.wp i (getRetention settings cohortDate) (ends (fun _ _ => True) fun _ _ => True)
      w := by
  have hkeys : Lasting i fun w' => keysOf i w' = keysOf i w :=
    fun _ _ hkept h => hkept.keys.trans h
  refine wp_seq (wp_now_lasting hkeys rfl) fun t w₁ h₁ => ?_
  have hbelow : Below i (retentionKey (cohortDate.getD (dateOf t - 8))) w₁ :=
    fun k hk => h t h₁.2.2 k (h₁.1 ▸ hk)
  have hlasting := lasting_below (i := i) (retentionKey (cohortDate.getD (dateOf t - 8)))
  refine wp_seq (wp_step hlasting rfl trivial hbelow) fun cached w₂ h₂ => ?_
  cases cached with
  | some data => trivial
  | none =>
      refine wp_seq (wp_step hlasting rfl trivial h₂) fun found w₃ h₃ => ?_
      cases found with
      | some row => trivial
      | none => exact wp_seq (wp_computeRetention _ h₃) fun _ _ _ => trivial

theorem wp_getRealtimeEpm {P : Reports → Prop} (hP : Lasting i P) (h : P w) :
    lockOrder.wp i (getRealtimeEpm settings) (ends (fun _ => P) fun _ _ => True) w := by
  refine wp_seq (wp_step hP rfl trivial h) fun cached w₁ h₁ => ?_
  cases cached with
  | some epm => exact h₁
  | none =>
      refine wp_seq (wp_step hP rfl trivial h₁) fun now w₂ h₂ => ?_
      refine wp_seq (wp_step hP rfl trivial h₂) fun epm w₃ h₃ => ?_
      exact wp_seq (wp_step hP rfl trivial h₃) fun _ w₄ h₄ => h₄

theorem wp_getApproxDauHll {P : Reports → Prop} (hP : Lasting i P) (d : Day) (h : P w) :
    lockOrder.wp i (getApproxDauHll (some d)) (ends (fun _ => P) fun _ _ => True) w := by
  simp only [getApproxDauHll, Prog.pure_eq, Prog.ret_bind]
  refine wp_seq (wp_step hP rfl trivial h) fun estimate w₁ h₁ => ?_
  exact wp_seq (wp_step hP rfl trivial h₁) fun _ w₂ h₂ => h₂

/-- The keys of the day, of the window that ends on it or later and of the cohort grow,
whatever midnights pass between the readings of the clock. -/
theorem wp_getSummary (h : keysOf i w = []) :
    lockOrder.wp i (getSummary settings) (ends (fun _ _ => True) fun _ _ => True) w := by
  have hkeys : Lasting i fun w => keysOf i w = [] := fun _ _ hkept h => hkept.keys.trans h
  refine wp_seq (wp_now_lasting hkeys h) fun t₁ w₁ h₁ => ?_
  have hbelow₁ : Below i (yyyymmdd (dateOf t₁)) w₁ := by
    intro k hk
    rw [h₁.1] at hk
    cases hk
  refine wp_seq (wp_after (wp_getDau_ascending _ hbelow₁) h₁.2.1) fun dau w₂ h₂ => ?_
  have hlasting := (lasting_upTo (i := i) (yyyymmdd (dateOf t₁))).and (lasting_after t₁)
  refine wp_seq (wp_getApproxDauHll hlasting _ h₂) fun estimate w₃ h₃ => ?_
  refine wp_seq (wp_getRealtimeEpm hlasting h₃) fun epm w₄ h₄ => ?_
  have hbelow₄ : ∀ t, w₄.warehouse.clock ≤ t →
      Below i (yyyymmdd (funnelStart none none t) + 1000000) w₄ := by
    intro t ht k hk
    have hlt := yyyymmdd_dateOf_lt (h₄.2.trans ht) (show (6 : Int) ≤ 0 + 8 by omega)
    rw [sub_zero] at hlt
    exact (h₄.1 k hk).trans_lt hlt
  refine wp_seq (wp_getFunnel hbelow₄) fun funnel w₅ h₅ => ?_
  obtain ⟨t₂, ht₂, hupTo₂⟩ := h₅
  have hlasting₂ := (lasting_upTo (i := i)
    (yyyymmdd (funnelStart none none t₂) + 1000000)).and (lasting_after t₂)
  refine wp_seq (wp_step hlasting₂ rfl trivial ⟨hupTo₂, ht₂⟩) fun total w₆ h₆ => ?_
  have hbelow₆ : ∀ t, w₆.warehouse.clock ≤ t → Below i (retentionKey (dateOf t - 8)) w₆ := by
    intro t ht k hk
    have hlt := yyyymmdd_dateOf_lt (h₆.2.trans ht) (show (8 : Int) ≤ 6 + 8 by omega)
    have hle : k ≤ yyyymmdd (dateOf t₂ - 6) + 1000000 := h₆.1 k hk
    unfold retentionKey
    omega
  refine wp_seq (S := fun _ _ => True) (wp_try (F := fun _ _ => True) ?_ fun _ _ _ => trivial)
    fun _ _ _ => trivial
  rw [Prog.map_eq]
  exact wp_seq (wp_getRetention hbelow₆) fun _ _ _ => trivial

end Programs

inductive MetricTask
  | getDau (metricDate : Option Day)
  | getFunnel (windowStart windowEnd : Option Day)
  | getRetention (cohortDate : Option Day)
  | getSummary
  | computeDauJob
  | computeFunnelJob
  | computeRetentionJob

def MetricTask.run (settings : Settings) : MetricTask → ReportApp Unit
  | .getDau d => do
    let _ ← reportsRequest (inReports (Services.getDau settings d))
    pure ()
  | .getFunnel a b => do
    let _ ← reportsRequest (inReports (Services.getFunnel settings a b))
    pure ()
  | .getRetention d => do
    let _ ← reportsRequest (Services.getRetention settings d)
    pure ()
  | .getSummary => do
    let _ ← reportsRequest (Services.getSummary settings)
    pure ()
  | .computeDauJob => do
    let _ ← inReports (Workers.computeDauJob settings)
    pure ()
  | .computeFunnelJob => do
    let _ ← inReports (Workers.computeFunnelJob settings)
    pure ()
  | .computeRetentionJob => do
    let _ ← Workers.computeRetentionJob settings
    pure ()

section Tasks

variable {settings : Settings} {i : Nat} {w : Reports} {α : Type}

/-- Nothing more is said of a program than that it keeps the order. -/
abbrev Orderly (i : Nat) (p : ReportApp α) (w : Reports) : Prop :=
  lockOrder.wp i p (ends (fun _ _ => True) fun _ _ => True) w

theorem orderly_bind {β : Type} {p : ReportApp α} {q : α → ReportApp β} (hp : Orderly i p w)
    (hq : ∀ a w', Orderly i (q a) w') : Orderly i (p >>= q) w :=
  wp_seq hp fun a w' _ => hq a w'

theorem orderly_withSession {rollback : ReportApp Unit} (hrollback : ∀ w, Orderly i rollback w)
    {body : ReportApp α} (h : Orderly i body w) : Orderly i (withSession rollback body) w := by
  unfold withSession
  have hbody : Orderly i (body.tryExcept fun exc => do
      rollback
      .raise exc) w :=
    wp_try h fun _ w' _ => orderly_bind (hrollback w') fun _ _ => trivial
  exact orderly_bind hbody fun _ w' => orderly_bind (hrollback w') fun _ _ => trivial

theorem orderly_request {handler : ReportApp α} (h : Orderly i handler w) :
    Orderly i (reportsRequest handler) w := by
  have hcommit : Orderly i (handler >>= fun r => query (.metric .commit) >>= fun _ => pure r) w :=
    orderly_bind h fun _ _ => orderly_bind (wp_perform_any trivial) fun _ _ => trivial
  exact orderly_withSession (fun _ => wp_perform_any trivial) hcommit

theorem inReports_withSession (body : MetricsApp α) :
    inReports (withSession (ask .rollback) body) =
      withSession (inReports (ask .rollback)) (inReports body) := by
  unfold withSession
  rw [inReports_bind]
  congr 1
  · exact (Prog.embed_tryExcept body _).trans
      (congrArg (Prog.tryExcept _) (funext fun _ => inReports_bind _ _))
  · exact funext fun _ => inReports_bind _ _

theorem orderly_job {compute : MetricsApp α} (h : Orderly i (inReports compute) w) :
    Orderly i (inReports (withSession (ask .rollback) do
      let value ← compute
      ask .commit
      pure value)) w := by
  rw [inReports_withSession]
  refine orderly_withSession (fun _ => wp_ask (c := .rollback) (wp_perform_any trivial)) ?_
  simp only [inReports_bind]
  refine orderly_bind h fun _ _ => ?_
  exact orderly_bind (wp_ask (c := .commit) (wp_perform_any trivial)) fun _ _ => trivial

theorem orderly_of_upTo {p : ReportApp α} {R : α → Reports → Prop}
    (h : lockOrder.wp i p (ends R fun _ _ => True) w) : Orderly i p w :=
  wp_ends_mono (fun _ _ _ => trivial) (fun _ _ h => h) h

theorem below_of_nil {key : Int} (h : keysOf i w = []) : Below i key w := by
  intro k hk
  rw [h] at hk
  cases hk

theorem MetricTask.orderly (h : keysOf i w = []) (task : MetricTask) :
    Orderly i (task.run settings) w := by
  have hkeys : Lasting i fun w => keysOf i w = [] := fun _ _ hkept h => hkept.keys.trans h
  cases task with
  | getDau d =>
      refine orderly_bind (orderly_request ?_) fun _ _ => trivial
      cases d with
      | some d => exact orderly_of_upTo (wp_getDau_ascending d (below_of_nil h))
      | none =>
          have htoday : lockOrder.wp i (inReports (dateOf <$> ask .now))
              (ends (fun _ w => keysOf i w = []) fun _ _ => True) w := by
            rw [Prog.map_eq, inReports_bind]
            exact wp_seq (wp_askStep hkeys rfl trivial h) fun _ _ h₁ => h₁
          have hsplit : inReports (Services.getDau settings none) =
              inReports (dateOf <$> ask .now) >>= fun d =>
                inReports (Services.getDau settings (some d)) :=
            inReports_bind (dateOf <$> ask .now) fun d => Services.getDau settings (some d)
          rw [hsplit]
          exact wp_seq htoday fun d w₁ h₁ =>
            orderly_of_upTo (wp_getDau_ascending d (below_of_nil h₁))
  | getFunnel a b =>
      refine orderly_bind (orderly_request ?_) fun _ _ => trivial
      exact orderly_of_upTo (wp_getFunnel fun _ _ => below_of_nil h)
  | getRetention d =>
      refine orderly_bind (orderly_request ?_) fun _ _ => trivial
      exact wp_getRetention fun _ _ => below_of_nil h
  | getSummary => exact orderly_bind (orderly_request (wp_getSummary h)) fun _ _ => trivial
  | computeDauJob =>
      refine orderly_bind ?_ fun _ _ => trivial
      simp only [Workers.computeDauJob, inReports_bind]
      refine wp_seq (wp_askStep hkeys rfl trivial h) fun today w₁ h₁ => ?_
      exact orderly_bind
        (orderly_job (orderly_of_upTo (wp_computeDau_ascending _ (below_of_nil h₁))))
        fun _ _ => trivial
  | computeFunnelJob =>
      refine orderly_bind ?_ fun _ _ => trivial
      simp only [Workers.computeFunnelJob, inReports_bind]
      refine wp_seq (wp_askStep hkeys rfl trivial h) fun today w₁ h₁ => ?_
      exact orderly_bind (orderly_job (orderly_of_upTo (wp_computeFunnel _ _ (below_of_nil h₁))))
        fun _ _ => trivial
  | computeRetentionJob =>
      refine orderly_bind ?_ fun _ _ => trivial
      refine wp_seq (wp_step hkeys rfl trivial h) fun today w₁ h₁ => ?_
      refine orderly_bind (orderly_withSession (fun _ => wp_perform_any trivial) ?_)
        fun _ _ => trivial
      refine orderly_bind (orderly_of_upTo (wp_computeRetention _ (below_of_nil h₁))) fun _ _ => ?_
      exact orderly_bind (wp_perform_any trivial) fun _ _ => trivial

end Tasks

def metricTasks (settings : Settings) (tasks : Nat → MetricTask) (w : Reports) :
    Config ReportCmd.Resp Exn Reports Unit :=
  ⟨w, fun i => .ready ((tasks i).run settings)⟩

def Wants (cfg : Config ReportCmd.Resp Exn Reports Unit) (i : Nat) (r : Resource) : Prop :=
  ∃ c k, cfg.threads i = .running (.call c k) ∧ wanted c = some r

/-- The act ends the transaction of session `i`: a commit, a rollback, or the loss of
the session. -/
def Closes (cfg : Config ReportCmd.Resp Exn Reports Unit) (i : Nat) :
    Act Choice ReportEnv → Prop
  | .step j _ => j = i ∧ ∃ c k, cfg.threads i = .running (.call c k) ∧ closing c = true
  | .crash j => j = i
  | _ => False

structure Closed (w : Reports) : Prop where
  locks : w.warehouse.locks = []
  written : w.warehouse.written = []
  retention : w.retentionWritten = []

/-- A command that waits wants what another session holds. -/
theorem wanted_of_blocked {i : Nat} {w : Reports} {c : ReportCmd}
    (hblocked : reports.exec i .ok w c = none) :
    ∃ r j, wanted c = some r ∧ j ≠ i ∧ Holds w j r := by
  have hmetric : ∀ c : MetricsCmd, w.warehouseExec i .ok c = none →
      (∃ key j, c = .advisoryLock key ∧ j ≠ i ∧ key ∈ keysOf j w) ∨
      ∃ p insert update j row, c = .upsert p insert update ∧ j ≠ i ∧
        (j, ⟨p, row⟩) ∈ w.warehouse.written := by
    intro c hnone
    have heffect := Option.map_eq_none_iff.mp hnone
    cases c <;> simp only [warehouse, metricsEffect] at heffect
    case advisoryLock key =>
      split at heffect
      · cases heffect
      · split at heffect
        · rename_i hany
          obtain ⟨⟨j, k⟩, hmem, hjk⟩ := List.any_eq_true.mp hany
          obtain ⟨hne, rfl⟩ := of_decide_eq_true hjk
          exact .inl ⟨k, j, rfl, hne, mem_keysOf.mpr hmem⟩
        · cases heffect
    case upsert p insert update =>
      split at heffect
      · cases heffect
      · split at heffect
        · rename_i hany
          obtain ⟨⟨j, q, row⟩, hmem, hjk⟩ := List.any_eq_true.mp hany
          obtain ⟨hne, rfl⟩ := of_decide_eq_true hjk
          exact .inr ⟨q, insert, update, j, row, rfl, hne, hmem⟩
        · cases heffect
    all_goals first | cases heffect | (split at heffect <;> cases heffect)
  have hwarehouse : ∀ c : MetricsCmd, w.warehouseExec i .ok c = none →
      ∃ r j, wanted (.metric c) = some r ∧ j ≠ i ∧ Holds w j r := by
    intro c hnone
    rcases hmetric c hnone with ⟨key, j, rfl, hne, hkey⟩ |
      ⟨p, insert, update, j, row, rfl, hne, hrow⟩
    · exact ⟨.key key, j, rfl, hne, hkey⟩
    · exact ⟨.snapshot p, j, rfl, hne, row, hrow⟩
  cases c
  case metric c =>
    cases c
    case upsert p insert update =>
      simp only [reports, Reports.metricExec] at hblocked
      split at hblocked
      · obtain ⟨r, j, hwanted, hne, hholds⟩ := hwarehouse _ hblocked
        exact ⟨r, j, hwanted, hne, hholds⟩
      · cases hblocked
    all_goals exact hwarehouse _ hblocked
  case upsertRetention d row =>
    simp only [reports, reportsEffect] at hblocked
    split at hblocked
    · cases hblocked
    · split at hblocked
      · cases hblocked
      · split at hblocked
        · rename_i hany
          obtain ⟨⟨j, d', columns⟩, hmem, hjk⟩ := List.any_eq_true.mp hany
          obtain ⟨hne, rfl⟩ := of_decide_eq_true hjk
          exact ⟨.retention d', j, rfl, hne, columns, hmem⟩
        · cases hblocked
  all_goals
    simp only [reports, reportsEffect] at hblocked
    first | cases hblocked | (split at hblocked <;> cases hblocked)

theorem keys_kept {cfg next : Config ReportCmd.Resp Exn Reports Unit}
    {act : Act Choice ReportEnv} (hstep : reports.step cfg act = some next) (i : Nat) :
    keysOf i cfg.world <+: keysOf i next.world ∨ Closes cfg i act := by
  cases Machine.step_cases hstep with
  | start ht => exact .inl (List.prefix_refl _)
  | @crash j c k ht =>
      by_cases hj : i = j
      · exact .inr hj.symm
      · have hkeys : keysOf i (cfg.world.rollbackTx j) = keysOf i cfg.world :=
          keysOf_dropped_ne rfl hj
        exact .inl (hkeys ▸ List.prefix_refl _)
  | env henv => exact .inl (keysOf_congr (locks_env henv) i ▸ List.prefix_refl _)
  | @step j ch c k r w ht hexec =>
      by_cases hj : i = j
      · subst hj
        exact (footprint_exec hexec).keys_self.imp_right fun hclosing =>
          ⟨rfl, c, k, ht, hclosing⟩
      · exact .inl ((footprint_exec hexec).keys_ne hj ▸ List.prefix_refl _)

section Runs

variable {settings : Settings} {tasks : Nat → MetricTask} {w : Reports}
  {cfg next : Config ReportCmd.Resp Exn Reports Unit}

theorem Closed.keeps (h : Closed w) (settings : Settings) (tasks : Nat → MetricTask) :
    lockOrder.Keeps (fun _ => ends (fun _ _ => True) fun _ _ => True)
      (metricTasks settings tasks w) := by
  have hkeys : ∀ i, keysOf i w = [] := fun i => by simp [keysOf, h.locks]
  have hlocked : Locked w := by
    refine ⟨fun i j k hi => ?_, fun i => ?_, fun i p row hrow => ?_, fun i d columns hrow => ?_⟩
    · simp [hkeys] at hi
    · simp [hkeys]
    · simp [h.written] at hrow
    · simp [h.retention] at hrow
  exact keeps_ready hlocked _ fun i w' hlater =>
    (tasks i).orderly (hlater.2.keys.trans (hkeys i))

/-- Nobody waits for a row: who wants to write it has its lock. -/
theorem waitsFor_key (hkeeps : lockOrder.Keeps (fun _ => ends (fun _ _ => True) fun _ _ => True)
    cfg) {i j : Nat} (hwait : WaitsFor (Wants cfg) (Holds cfg.world) i j) :
    WaitsFor (fun i k => Wants cfg i (.key k)) (fun i k => Holds cfg.world i (.key k)) i j := by
  obtain ⟨hne, r, ⟨c, k, ht, hwanted⟩, hholds⟩ := hwait
  have hduty := hkeeps.duty ht
  cases r with
  | key key => exact ⟨hne, key, ⟨c, k, ht, hwanted⟩, hholds⟩
  | snapshot p =>
      obtain ⟨row, hrow⟩ := hholds
      have hj : keyOf p ∈ keysOf j cfg.world := hkeeps.inv.written j p row hrow
      have hi : keyOf p ∈ keysOf i cfg.world := by
        cases c with
        | metric c =>
            cases c <;> cases hwanted
            exact hduty
        | _ => cases hwanted
      exact absurd (hkeeps.inv.exclusive i j _ hi hj) hne
  | retention d =>
      obtain ⟨columns, hcolumns⟩ := hholds
      have hj : retentionKey d ∈ keysOf j cfg.world := hkeeps.inv.retention j d columns hcolumns
      have hi : retentionKey d ∈ keysOf i cfg.world := by
        cases c with
        | metric c => cases c <;> cases hwanted
        | upsertRetention d row =>
            cases hwanted
            exact hduty
        | _ => cases hwanted
      exact absurd (hkeeps.inv.exclusive i j _ hi hj) hne

/-- Whatever the interleaving, the keys of a transaction grow in the order in which it
takes them, it keeps them until it ends, and transactions do not wait in a circle. -/
theorem keys_ascend_acyclic (hw : Closed w)
    (hreach : Reach reports .any (metricTasks settings tasks w) cfg) :
    (∀ i, (keysOf i cfg.world).Pairwise (· < ·)) ∧
      (∀ i act next, reports.step cfg act = some next →
        keysOf i cfg.world <+: keysOf i next.world ∨ Closes cfg i act) ∧
      ∀ i, ¬ Relation.TransGen (WaitsFor (Wants cfg) (Holds cfg.world)) i i := by
  have hkeeps := (hw.keeps settings tasks).reach hreach
  refine ⟨hkeeps.inv.ascending, fun i act next hstep => ?_, fun i hcycle => ?_⟩
  · exact keys_kept hstep i
  · have hascending : Ascending (fun i k => Wants cfg i (.key k)) fun i k =>
        Holds cfg.world i (.key k) := by
      rintro j key ⟨c, k, ht, hwanted⟩ key' hholds
      have hduty := hkeeps.duty ht
      cases c with
      | metric c =>
          cases c <;> cases hwanted
          exact hduty key' hholds
      | _ => cases hwanted
    exact hascending.acyclic i
      (Relation.TransGen.mono (fun _ _ => waitsFor_key hkeeps) i i hcycle)

end Runs

/-- A millisecond before the new year, with empty stores. -/
def newYearsEve : Reports where
  warehouse :=
    { clock := 365 * 86400000 - 1
      events := []
      rows := fun _ => none
      cache := fun _ => none
      written := []
      locks := []
      aborted := fun _ => false }
  retention := fun _ => none
  retentionCache := fun _ => none
  retentionWritten := []
  epmCache := none
  visitors := fun _ => 0

def summaryAndJob (i : Nat) : MetricTask :=
  if i = 0 then .getSummary else .computeDauJob

/-- The summary takes its first lock in the old year and the others in the new one,
while the job waits for the first. -/
theorem keys_ascend_acyclic_new_year :
    ∃ cfg, Reach reports .any (metricTasks {} summaryAndJob newYearsEve) cfg ∧
      keysOf 0 cfg.world = [19701231, 20701226, 21701224] ∧
      (∃ key, Wants cfg 1 (.key key) ∧ Holds cfg.world 0 (.key key)) ∧
      ∀ i, ¬ Relation.TransGen (WaitsFor (Wants cfg) (Holds cfg.world)) i i := by
  obtain ⟨cfg, hreach, htest⟩ := exists_reach_of_run (M := reports) (π := .any)
    (.start 0 :: List.replicate 4 (.step 0 .ok) ++
      [.start 1, .step 1 .ok, .env (.metric (.tick 1))] ++ List.replicate 29 (.step 0 .ok))
    (metricTasks {} summaryAndJob newYearsEve)
    (fun cfg => decide (keysOf 0 cfg.world = [19701231, 20701226, 21701224] ∧
      (cfg.threads 1).command?.bind wanted = some (.key 19701231))) (by decide +kernel)
  obtain ⟨hkeys, hwants⟩ := of_decide_eq_true htest
  refine ⟨cfg, hreach, hkeys, ⟨19701231, ?_, ?_⟩,
    (keys_ascend_acyclic ⟨rfl, rfl, rfl⟩ hreach).2.2⟩
  · obtain ⟨c, hcommand, hc⟩ := Option.bind_eq_some_iff.mp hwants
    obtain ⟨k, hthread⟩ := Thread.command?_eq_some.mp hcommand
    exact ⟨c, k, hthread, hc⟩
  · change (19701231 : Int) ∈ keysOf 0 cfg.world
    rw [hkeys]
    decide

end EventAnalytics.Workers
