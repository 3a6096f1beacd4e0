import EventAnalytics.Library.Faults
import EventAnalytics.Workers.LockOrder
import EventAnalytics.Workers.Sources

/-! What is left of a summary whose retention has failed. The exception is swallowed, but
the statement that raised it has aborted the transaction in which the daily users and
the funnel were written. -/
namespace EventAnalytics.Workers

open Library Db Services

/-- `get_summary` before it asks for the retention. -/
def summaryHead (settings : Settings) : ReportApp (Nat × Nat × Nat × FunnelResponse) := do
  let today := dateOf (← query (.metric .now))
  let dau ← inReports (getDau settings (some today))
  let _ ← getApproxDauHll (some today)
  let epm ← getRealtimeEpm settings
  let funnel ← inReports (getFunnel settings none none)
  let total ← query .countEvents
  pure (dau.dau, total, epm.eventsPerMinute, funnel)

def summaryTail (settings : Settings) (head : Nat × Nat × Nat × FunnelResponse) :
    ReportApp MetricsSummary := do
  let retention ← (some <$> getRetention settings none).tryExcept fun _ => pure none
  pure ⟨head.1, head.2.1, head.2.2.1, head.2.2.2, retention⟩

theorem getSummary_eq (settings : Settings) :
    getSummary settings = summaryHead settings >>= summaryTail settings := by
  simp only [getSummary, summaryHead, Prog.bind_assoc]
  rfl

/-- The snapshots that a summary at this time reads. -/
def summaryPeriods (clock : Nat) : List Period :=
  [.dau (dateOf clock), .funnel (dateOf clock - 6) (dateOf clock)]

/-- A read of the period finds it in the cache or in its table. -/
def Available (w : Reports) (p : Period) : Prop :=
  (w.warehouse.cached? p).isSome ∨ (w.warehouse.rows p).isSome

instance (w : Reports) (p : Period) : Decidable (Available w p) :=
  inferInstanceAs (Decidable ((w.warehouse.cached? p).isSome ∨ (w.warehouse.rows p).isSome))

/-- What the session had written in the first world is committed in the second. -/
def SnapshotsKept (before after : Reports) : Prop :=
  ∀ p row, before.warehouse.own? 0 p = some row → after.warehouse.rows p = some row

/-- The period of which a command changes the cache entry or the row. -/
def written? : ReportCmd → Option Period
  | .metric (.cacheSet p _ _) => some p
  | .metric (.upsert p _ _) => some p
  | _ => none

/-- Commands within a transaction that change no period but those of `P`. -/
def ChangesOnly (P : Period → Prop) (c : ReportCmd) : Prop :=
  closing c = false ∧ ∀ p, written? c = some p → P p

structure SameBut (P : Period → Prop) (w w' : Reports) : Prop where
  clock : w'.warehouse.clock = w.warehouse.clock
  rows : w'.warehouse.rows = w.warehouse.rows
  aborted : w'.warehouse.aborted 0 = w.warehouse.aborted 0
  cached : ∀ p, ¬P p → w'.warehouse.cached? p = w.warehouse.cached? p
  own : ∀ p, ¬P p → w'.warehouse.own? 0 p = w.warehouse.own? 0 p

section Steps

variable {P : Period → Prop} {w w' : Reports}

theorem SameBut.refl (w : Reports) : SameBut P w w :=
  ⟨rfl, rfl, rfl, fun _ _ => rfl, fun _ _ => rfl⟩

theorem SameBut.trans {a b c : Reports} (hab : SameBut P a b) (hbc : SameBut P b c) :
    SameBut P a c where
  clock := hbc.clock.trans hab.clock
  rows := hbc.rows.trans hab.rows
  aborted := hbc.aborted.trans hab.aborted
  cached p hp := (hbc.cached p hp).trans (hab.cached p hp)
  own p hp := (hbc.own p hp).trans (hab.own p hp)

theorem SameBut.mono {Q : Period → Prop} (h : SameBut P w w') (hPQ : ∀ p, P p → Q p) :
    SameBut Q w w' :=
  ⟨h.clock, h.rows, h.aborted, fun p hp => h.cached p fun hP => hp (hPQ p hP),
    fun p hp => h.own p fun hP => hp (hPQ p hP)⟩

theorem sameBut_of_warehouse (h : w'.warehouse = w.warehouse) : SameBut P w w' := by
  refine ⟨?_, ?_, ?_, fun _ _ => ?_, fun _ _ => ?_⟩ <;> rw [h]

theorem sameBut_cacheSet {p : Period} {row : p.Row} {ttl : Nat} {u : Unit} (hp : P p)
    (h : reportsStep w (.metric (.cacheSet p row ttl)) = some (.ok u, w')) : SameBut P w w' := by
  obtain ⟨-, rfl⟩ := cacheSet_eq h
  refine ⟨rfl, rfl, rfl, fun q hq => ?_, fun _ _ => rfl⟩
  have hne : q ≠ p := fun hqp => hq (hqp ▸ hp)
  simp [Warehouse.cached?, Function.update_of_ne hne]

theorem sameBut_upsert {p : Period} {insert update : p.Row} {u : Unit} (hp : P p)
    (h : reportsStep w (.metric (.upsert p insert update)) = some (.ok u, w')) :
    SameBut P w w' := by
  obtain ⟨insert', update', -, -, rfl⟩ := upsert_eq h
  refine ⟨rfl, rfl, rfl, fun _ _ => rfl, fun q hq => ?_⟩
  have hne : q ≠ p := fun hqp => hq (hqp ▸ hp)
  exact Warehouse.own?_upsert_ne (.inr hne) _ _

theorem sameBut_lock {k : Int} {u : Unit}
    (h : reportsStep w (.metric (.advisoryLock k)) = some (.ok u, w')) : SameBut P w w' := by
  rw [lock_eq h]
  exact ⟨rfl, rfl, rfl, fun _ _ => rfl, fun _ _ => rfl⟩

theorem sameBut_step {c : ReportCmd} {a : c.Resp} (hc : ChangesOnly P c)
    (h : reportsStep w c = some (.ok a, w')) : SameBut P w w' := by
  obtain ⟨hopen, hperiod⟩ := hc
  cases c with
  | metric c =>
      cases c with
      | now =>
          obtain ⟨-, rfl⟩ := step_now h
          exact .refl _
      | cacheGet p =>
          obtain ⟨-, rfl⟩ := step_cacheGet h
          exact .refl _
      | cacheSet p row ttl => exact sameBut_cacheSet (hperiod p rfl) h
      | advisoryLock k => exact sameBut_lock h
      | countUsers start stop eventType =>
          obtain ⟨-, rfl⟩ := step_countUsers h
          exact .refl _
      | select p =>
          obtain ⟨-, rfl⟩ := step_select h
          exact .refl _
      | upsert p insert update => exact sameBut_upsert (hperiod p rfl) h
      | commit => cases hopen
      | rollback => cases hopen
  | retentionGet d =>
      obtain ⟨-, rfl⟩ := step_retentionGet h
      exact .refl _
  | retentionSet d data ttl =>
      simp only [reportsStep, reports, reportsEffect] at h
      split at h <;> cases h
      exact sameBut_of_warehouse rfl
  | cohort start stop =>
      obtain ⟨-, rfl⟩ := step_cohort h
      exact .refl _
  | countAmong users start stop =>
      obtain ⟨-, rfl⟩ := step_countAmong h
      exact .refl _
  | selectRetention d =>
      obtain ⟨-, rfl⟩ := step_selectRetention h
      exact .refl _
  | upsertRetention d row =>
      simp only [reportsStep, reports, reportsEffect] at h
      split at h
      · cases h
      · split at h
        · cases h
        · split at h <;> cases h
          exact sameBut_of_warehouse rfl
  | epmSet epm ttl =>
      simp only [reportsStep, reports, reportsEffect] at h
      split at h <;> cases h
      exact sameBut_of_warehouse rfl
  | countSince since =>
      simp only [reportsStep, reports, reportsEffect] at h
      split at h <;> cases h
      exact .refl _
  | countEvents =>
      simp only [reportsStep, reports, reportsEffect] at h
      split at h <;> cases h
      exact .refl _
  | pfCount d =>
      cases h
      exact .refl _
  | epmGet =>
      cases h
      exact .refl _

theorem metricsEffect_ok {w w' : Warehouse} {c : MetricsCmd} {e : Exn}
    (hstatement : c.statement = true) (haborted : w.aborted 0 = false) :
    metricsEffect 0 w c ≠ some (.error e, w') := by
  intro h
  cases c <;> simp only [MetricsCmd.statement, Bool.false_eq_true] at hstatement <;>
    simp only [metricsEffect, haborted, Bool.false_eq_true, if_false] at h
  case advisoryLock key => split at h <;> cases h
  case countUsers => cases h
  case select => cases h
  case upsert => split at h <;> cases h

theorem abort_of_metric_failed {c : MetricsCmd} {ch : Choice} {e : Exn}
    (hstatement : c.statement = true) (haborted : w.warehouse.aborted 0 = false)
    (hch : ch ≠ .raiseBefore) (h : w.warehouseExec 0 ch c = some (.error e, w')) :
    w' = w.abortTx 0 := by
  obtain ⟨⟨r, v⟩, hexec, hw⟩ := Option.map_eq_some_iff.mp h
  cases ch with
  | raiseBefore => exact absurd rfl hch
  | ok =>
      cases hw
      exact absurd hexec (metricsEffect_ok hstatement haborted)
  | raiseAfter =>
      cases hw
      cases c <;> cases hstatement <;> cases hexec <;> rfl

theorem abort_of_failed {c : ReportCmd} {ch : Choice} {e : Exn}
    (hstatement : c.statement = true) (haborted : w.warehouse.aborted 0 = false)
    (hch : ch ≠ .raiseBefore) (h : reports.exec 0 ch w c = some (.error e, w')) :
    w' = w.abortTx 0 := by
  cases c with
  | metric c =>
      cases c with
      | upsert p insert update =>
          simp only [reports, Reports.metricExec] at h
          split at h
          · exact abort_of_metric_failed rfl haborted hch h
          · cases ch <;> first | exact absurd rfl hch | (cases h; rfl)
      | advisoryLock key => exact abort_of_metric_failed rfl haborted hch h
      | countUsers start stop eventType => exact abort_of_metric_failed rfl haborted hch h
      | select p => exact abort_of_metric_failed rfl haborted hch h
      | _ => cases hstatement
  | upsertRetention d row =>
      cases ch with
      | raiseBefore => exact absurd rfl hch
      | raiseAfter =>
          cases h
          rfl
      | ok =>
          simp only [reports, reportsEffect, haborted, Bool.false_eq_true, if_false] at h
          split at h
          · cases h
            rfl
          · split at h <;> cases h
  | retentionGet | retentionSet | pfCount | epmGet | epmSet => cases hstatement
  | cohort | countAmong | selectRetention | countSince | countEvents =>
      cases ch with
      | raiseBefore => exact absurd rfl hch
      | raiseAfter =>
          cases h
          rfl
      | ok =>
          simp only [reports, reportsEffect, haborted, Bool.false_eq_true, if_false] at h
          cases h

end Steps

section Programs

variable {P : Period → Prop} {settings : Settings} {α : Type}

theorem ChangesOnly.nothing {c : ReportCmd} (hopen : closing c = false)
    (hnone : written? c = none) : ChangesOnly P c :=
  ⟨hopen, fun p hp => by simp [hnone] at hp⟩

theorem ChangesOnly.period {c : ReportCmd} {p : Period} (hopen : closing c = false)
    (hsome : written? c = some p) (hp : P p) : ChangesOnly P c :=
  ⟨hopen, fun _ hq => Option.some.inj (hsome.symm.trans hq) ▸ hp⟩

theorem straight_query {c : ReportCmd} (hopen : closing c = false) (hnone : written? c = none) :
    (query c).Straight (ChangesOnly P) :=
  .perform (.nothing hopen hnone)

theorem straight_inReports {p : MetricsApp α}
    (hp : p.Straight fun c => ChangesOnly P (.metric c)) :
    (inReports p).Straight (ChangesOnly P) :=
  hp.embed (fun _ hc => hc) (fun _ _ => rfl) fun _ a => ⟨a, rfl⟩

theorem straight_computeDau {d : Day} (hd : P (.dau d)) :
    (computeDau settings d).Straight fun c => ChangesOnly P (.metric c) := by
  apply Prog.Straight.bind (.perform (.nothing rfl rfl))
  intro _
  apply Prog.Straight.bind (.perform (.nothing rfl rfl))
  intro dau
  apply Prog.Straight.bind (.perform (.nothing rfl rfl))
  intro insertedAt
  apply Prog.Straight.bind (.perform (.nothing rfl rfl))
  intro updatedAt
  apply Prog.Straight.bind (.perform (.period rfl rfl hd))
  intro _
  apply Prog.Straight.bind (.perform (.nothing rfl rfl))
  intro cachedAt
  apply Prog.Straight.bind (.perform (.period rfl rfl hd))
  intro _
  exact .ret dau

theorem straight_getDau {d : Day} (hd : P (.dau d)) :
    (inReports (getDau settings (some d))).Straight (ChangesOnly P) := by
  apply straight_inReports
  apply Prog.Straight.bind (.perform (.nothing rfl rfl))
  intro cached
  cases cached with
  | some data => exact .ret _
  | none =>
      apply Prog.Straight.bind (.perform (.nothing rfl rfl))
      intro found
      cases found with
      | some row => exact .bind (.perform (.period rfl rfl hd)) fun _ => .ret _
      | none =>
          apply Prog.Straight.bind (straight_computeDau hd)
          intro dau
          exact .bind (.perform (.nothing rfl rfl)) fun _ => .ret _

theorem straight_computeFunnel {a b : Day} (hp : P (.funnel a b)) :
    (computeFunnel settings a b).Straight fun c => ChangesOnly P (.metric c) := by
  apply Prog.Straight.bind (.perform (.nothing rfl rfl))
  intro _
  apply Prog.Straight.bind (.perform (.nothing rfl rfl))
  intro view
  apply Prog.Straight.bind (.perform (.nothing rfl rfl))
  intro search
  apply Prog.Straight.bind (.perform (.nothing rfl rfl))
  intro cart
  apply Prog.Straight.bind (.perform (.nothing rfl rfl))
  intro order
  apply Prog.Straight.bind (.perform (.nothing rfl rfl))
  intro computedAt
  apply Prog.Straight.bind (.perform (.period rfl rfl hp))
  intro _
  apply Prog.Straight.bind (.perform (.period rfl rfl hp))
  intro _
  exact .ret _

theorem straight_getFunnel {a b : Day} (hp : P (.funnel a b)) :
    (inReports (getFunnel settings (some a) (some b))).Straight (ChangesOnly P) := by
  apply straight_inReports
  apply Prog.Straight.bind (.perform (.nothing rfl rfl))
  intro now
  apply Prog.Straight.bind (.perform (.nothing rfl rfl))
  intro cached
  cases cached with
  | some data => exact .ret _
  | none =>
      apply Prog.Straight.bind (.perform (.nothing rfl rfl))
      intro found
      cases found with
      | some row => exact .ret _
      | none => exact .bind (straight_computeFunnel hp) fun snap => .ret _

theorem straight_retainedOf (d : Day) (users : List UUID) :
    (retainedOf d users).Straight (ChangesOnly P) := by
  unfold retainedOf
  split
  · exact .ret _
  · apply Prog.Straight.bind (straight_query rfl rfl)
    intro d1
    exact .bind (straight_query rfl rfl) fun d7 => .ret _

theorem straight_computeRetention (d : Day) :
    (computeRetention settings d).Straight (ChangesOnly P) := by
  apply Prog.Straight.bind (straight_query rfl rfl)
  intro _
  apply Prog.Straight.bind (.ofExcept _)
  intro _
  apply Prog.Straight.bind (straight_query rfl rfl)
  intro users
  apply Prog.Straight.bind (straight_retainedOf d users)
  intro retained
  apply Prog.Straight.bind (straight_query rfl rfl)
  intro now
  apply Prog.Straight.bind (straight_query rfl rfl)
  intro _
  exact .bind (straight_query rfl rfl) fun _ => .ret _

theorem straight_getRetention (cohortDate : Option Day) :
    (getRetention settings cohortDate).Straight (ChangesOnly P) := by
  apply Prog.Straight.bind (straight_query rfl rfl)
  intro now
  apply Prog.Straight.bind (straight_query rfl rfl)
  intro cached
  cases cached with
  | some data => exact .ret _
  | none =>
      apply Prog.Straight.bind (straight_query rfl rfl)
      intro found
      cases found with
      | some row => exact .ret _
      | none => exact .bind (straight_computeRetention _) fun snap => .ret _

theorem straight_getApproxDauHll (d : Day) :
    (getApproxDauHll (some d)).Straight (ChangesOnly P) := by
  apply Prog.Straight.bind (straight_query rfl rfl)
  intro estimate
  exact .bind (straight_query rfl rfl) fun _ => .ret _

theorem straight_getRealtimeEpm : (getRealtimeEpm settings).Straight (ChangesOnly P) := by
  apply Prog.Straight.bind (straight_query rfl rfl)
  intro cached
  cases cached with
  | some epm => exact .ret _
  | none =>
      apply Prog.Straight.bind (straight_query rfl rfl)
      intro now
      apply Prog.Straight.bind (straight_query rfl rfl)
      intro epm
      exact .bind (straight_query rfl rfl) fun _ => .ret _

theorem sameBut_straight {p : ReportApp α} {a : α} {w w' : Reports}
    (hp : p.Straight (ChangesOnly P)) (h : p.run reportsStep w = some (.ok a, w')) :
    SameBut P w w' :=
  hp.run SameBut.refl (fun _ _ _ => SameBut.trans) (fun _ _ _ _ => sameBut_step) h

end Programs

section Head

variable {settings : Settings} {w w₁ : Reports} {d a b : Day}

theorem own_getDau {r : DAUResponse} (hown : w.warehouse.own? 0 (.dau d) = none)
    (h : (inReports (getDau settings (some d))).run reportsStep w = some (.ok r, w₁)) :
    (w₁.warehouse.own? 0 (.dau d)).isSome ↔ ¬Available w (.dau d) := by
  rcases getDau_cases h with ⟨-, hcached, rfl⟩ | ⟨-, row, u, hrow, hset⟩ |
    ⟨-, hcached, hrow, hcompute⟩
  · refine iff_of_false (by simp [hown]) fun hnot => hnot (.inl hcached)
  · obtain ⟨-, -, hwritten, -⟩ := step_cacheSet hset
    rw [hown, Option.none_or] at hrow
    refine iff_of_false ?_ fun hnot => hnot (.inr ?_)
    · rw [Warehouse.own?_congr hwritten]
      simp [hown]
    · rw [hrow]
      rfl
  · rw [hown, Option.none_or] at hrow
    obtain ⟨stored, hpending, -⟩ := (drafted_dau hcompute).pending
    refine iff_of_true ?_ ?_
    · obtain ⟨row, hrow, -⟩ := Option.map_eq_some_iff.mp hpending
      rw [hrow]
      rfl
    · simp [Available, hcached, hrow]

theorem own_getFunnel {r : FunnelResponse} (hown : w.warehouse.own? 0 (.funnel a b) = none)
    (h : (inReports (getFunnel settings (some a) (some b))).run reportsStep w =
      some (.ok r, w₁)) :
    (w₁.warehouse.own? 0 (.funnel a b)).isSome ↔ ¬Available w (.funnel a b) := by
  rcases getFunnel_cases h with ⟨-, hcached, rfl⟩ | ⟨-, hrow, rfl⟩ |
    ⟨-, hcached, hrow, snap, -, hcompute⟩
  · exact iff_of_false (by simp [hown]) fun hnot => hnot (.inl hcached)
  · rw [hown, Option.none_or] at hrow
    exact iff_of_false (by simp [hown]) fun hnot => hnot (.inr hrow)
  · rw [hown, Option.none_or] at hrow
    obtain ⟨stored, hpending, -⟩ := (drafted_funnel hcompute).pending
    refine iff_of_true ?_ ?_
    · obtain ⟨row, hrow, -⟩ := Option.map_eq_some_iff.mp hpending
      rw [hrow]
      rfl
    · simp [Available, hcached, hrow]

/-- When the retention is asked for, what the session has written are the snapshots that
it did not find. -/
theorem written_summaryHead {head : Nat × Nat × Nat × FunnelResponse} (hidle : Idle w)
    (h : (summaryHead settings).run reportsStep w = some (.ok head, w₁)) :
    SameBut (· ∈ summaryPeriods w.warehouse.clock) w w₁ ∧
      ∀ p ∈ summaryPeriods w.warehouse.clock,
        (w₁.warehouse.own? 0 p).isSome ↔ ¬Available w p := by
  obtain ⟨now, wa, hnow, h⟩ := run_query h
  obtain ⟨dau, wb, hdau, h⟩ := Prog.run_bind_inv h
  obtain ⟨estimate, wc, hestimate, h⟩ := Prog.run_bind_inv h
  obtain ⟨epm, wd, hepm, h⟩ := Prog.run_bind_inv h
  obtain ⟨funnel, we, hfunnel, h⟩ := Prog.run_bind_inv h
  obtain ⟨total, wf, htotal, h⟩ := run_query h
  cases h
  obtain ⟨rfl, rfl⟩ := step_now hnow
  have hwindow : (inReports (getFunnel settings none none)).run reportsStep wd =
      (inReports (getFunnel settings (some (dateOf wd.warehouse.clock - 6))
        (some (dateOf wd.warehouse.clock)))).run reportsStep wd := rfl
  rw [hwindow] at hfunnel
  obtain ⟨today, htoday⟩ : ∃ today, today = dateOf wa.warehouse.clock := ⟨_, rfl⟩
  rw [← htoday] at hdau hestimate
  have hbetween : SameBut (fun _ => False) wb wd :=
    (sameBut_straight (straight_getApproxDauHll today) hestimate).trans
      (sameBut_straight straight_getRealtimeEpm hepm)
  have hbefore : SameBut (· = .dau today) wa wb := sameBut_straight (straight_getDau rfl) hdau
  have hclock : dateOf wd.warehouse.clock = today := by
    rw [hbetween.clock, hbefore.clock, htoday]
  rw [hclock] at hfunnel
  have hafter : SameBut (· = .funnel (today - 6) today) wd we :=
    sameBut_straight (straight_getFunnel rfl) hfunnel
  have hlast : SameBut (fun _ => False) we w₁ := sameBut_step (.nothing rfl rfl) htotal
  have hperiods : summaryPeriods wa.warehouse.clock =
      [.dau today, .funnel (today - 6) today] := by
    rw [htoday]
    rfl
  simp only [hperiods, List.mem_cons, List.not_mem_nil, or_false]
  constructor
  · have hnone : ∀ {v v'}, SameBut (fun _ => False) v v' →
        SameBut (fun p => p = .dau today ∨ p = .funnel (today - 6) today) v v' :=
      fun hv => hv.mono fun _ hp => hp.elim
    exact (hbefore.mono fun _ => .inl).trans
      ((hnone hbetween).trans ((hafter.mono fun _ => .inr).trans (hnone hlast)))
  · rintro p (rfl | rfl)
    · rw [hlast.own _ id, hafter.own _ (by simp), hbetween.own _ id]
      exact own_getDau (hidle.own _) hdau
    · have hown : wd.warehouse.own? 0 (.funnel (today - 6) today) = none := by
        rw [hbetween.own _ id, hbefore.own _ (by simp), hidle.own]
      rw [hlast.own _ id, own_getFunnel hown hfunnel]
      unfold Available
      rw [hbetween.cached _ id, hbefore.cached _ (by simp), hbetween.rows, hbefore.rows]

end Head

section Tail

variable {w w₁ w₂ w₃ : Reports} {α : Type} {n : Nat} {c : ReportCmd}

theorem advance_request {handler : ReportApp α} {k : Except Exn c.Resp → ReportApp α}
    (h : handler.advance reportsStep n w = some (.call c k, w₁)) :
    (reportsRequest handler).advance reportsStep n w =
      some (.call c fun r => reportsRequest (k r), w₁) :=
  Prog.advance_bind_call _ (Prog.advance_tryExcept _ (Prog.advance_bind_call _ h))

theorem rows_request_aborted {a : α} :
    ∃ w', (reportsRequest (pure a : ReportApp α)).run reportsStep (w.abortTx 0) =
      some (.ok a, w') ∧ w'.warehouse.rows = w.warehouse.rows := by
  have hpure : (pure a : ReportApp α).run reportsStep (w.abortTx 0) =
    some (.ok a, w.abortTx 0) := rfl
  obtain ⟨w', hrun⟩ := run_request_ok hpure
  refine ⟨w', hrun, ?_⟩
  obtain ⟨w₁, hpure, rfl⟩ := run_request hrun
  cases hpure
  funext p
  have hown : (w.abortTx 0).warehouse.own? 0 p = none :=
    Warehouse.own?_dropped_self (w := w.warehouse) rfl
  simp only [Warehouse.rollbackTx, Warehouse.commitTx]
  rw [hown]
  rfl

/-- The response is the same in every case, and what was computed is committed only where
nothing was: if every snapshot was found. -/
theorem partial_summary_kept_iff (settings : Settings) (ch : Choice)
    {head : Nat × Nat × Nat × FunnelResponse} {m : Nat}
    {k : Except Exn c.Resp → ReportApp RetentionResponse} {e : Exn} (hidle : Idle w)
    (hhead : (summaryHead settings).advance reportsStep m w = some (.ret head, w₁))
    (hissued : (getRetention settings none).advance reportsStep n w₁ = some (.call c k, w₂))
    (hstatement : c.statement = true) (hserver : ch ≠ .raiseBefore)
    (hfailed : reports.exec 0 ch w₂ c = some (.error e, w₃)) :
    ∃ summary w', (reportsRequest (getSummary settings)).runFault reportsStep
        (reports.exec 0 ch) (m + n) w = some (.ok summary, w') ∧ summary.retention = none ∧
      (SnapshotsKept w₁ w' ↔ ∀ p ∈ summaryPeriods w.warehouse.clock, Available w p) := by
  obtain ⟨hsame, hwritten⟩ := written_summaryHead hidle (Prog.run_of_advance hhead)
  obtain ⟨hbetween, -, hraise⟩ := (straight_getRetention (P := fun _ => False) none).advance
    SameBut.refl (fun _ _ _ => SameBut.trans) (fun _ _ _ _ => sameBut_step) hissued
  have haborted : w₂.warehouse.aborted 0 = false := by
    rw [hbetween.aborted, hsame.aborted, hidle.aborted]
  obtain rfl := abort_of_failed hstatement haborted hserver hfailed
  have hposition : (reportsRequest (getSummary settings)).advance reportsStep (m + n) w =
      some (.call c fun r => reportsRequest (((k r >>= fun snap => pure (some snap)).tryExcept
        fun _ => pure none) >>= fun retention =>
          pure ⟨head.1, head.2.1, head.2.2.1, head.2.2.2, retention⟩), w₂) := by
    rw [getSummary_eq]
    apply advance_request
    rw [Prog.advance_bind_ret _ n hhead]
    exact Prog.advance_bind_call _
      (Prog.advance_tryExcept _ (Prog.advance_bind_call _ hissued))
  obtain ⟨w', hfinish, hrows⟩ := rows_request_aborted (w := w₂)
    (a := (⟨head.1, head.2.1, head.2.2.1, head.2.2.2, none⟩ : MetricsSummary))
  rw [hbetween.rows, hsame.rows] at hrows
  refine ⟨⟨head.1, head.2.1, head.2.2.1, head.2.2.2, none⟩, w', ?_, rfl, ?_⟩
  · rw [Prog.runFault_eq hposition hfailed, hraise]
    exact hfinish
  · constructor
    · intro hkept p hp
      by_contra hnone
      obtain ⟨row, hown⟩ := Option.isSome_iff_exists.mp ((hwritten p hp).mpr hnone)
      have hrow := hkept p row hown
      rw [hrows] at hrow
      exact hnone (.inr (by simp [hrow]))
    · intro havailable p row hown
      by_cases hp : p ∈ summaryPeriods w.warehouse.clock
      · exact absurd (havailable p hp) ((hwritten p hp).mp (by simp [hown]))
      · rw [hsame.own p hp, hidle.own] at hown
        cases hown

end Tail

/-- Nothing is known of one user's visit today, and the read of the retention snapshot
fails: the count is in the cache and in no table. -/
theorem snapshot_lost :
    (∃ k w, (reportsRequest (getSummary {})).advance reportsStep 31 (comeback 1) =
        some (.call (.selectRetention (-8)) k, w) ∧
      (w.warehouse.own? 0 (.dau 0)).map DauRow.value = some 1) ∧
    ((reportsRequest (getSummary {})).runFault reportsStep (reports.exec 0 .raiseAfter) 31
        (comeback 1)).map (fun rw => (rw.1.toOption.map MetricsSummary.retention,
          (rw.2.warehouse.cached? (.dau 0)).map DauRow.value, rw.2.warehouse.rows (.dau 0))) =
      some (some none, some 1, none) := by
  refine ⟨⟨_, _, rfl, ?_⟩, ?_⟩
  · decide +kernel
  · decide +kernel

/-- The same visit with both counts in the cache. -/
def warmed : Reports :=
  { comeback 1 with
    warehouse := { (comeback 1).warehouse with
      cache
        | .dau _ => some ⟨⟨1, 0⟩, 1000⟩
        | .funnel .. => some ⟨⟨0, 0, 0, 0, 0⟩, 1000⟩ } }

/-- From the warm cache nothing is computed and nothing is lost; without it both periods are
computed, and lost. -/
theorem partial_summary_kept_iff_comeback :
    (∃ head w₁ summary w', (summaryHead {}).advance reportsStep 11 warmed =
        some (.ret head, w₁) ∧
      (reportsRequest (getSummary {})).runFault reportsStep (reports.exec 0 .raiseAfter)
        (11 + 2) warmed = some (.ok summary, w') ∧
      summary.retention = none ∧ SnapshotsKept w₁ w') ∧
    ∃ head w₁ summary w', (summaryHead {}).advance reportsStep 29 (comeback 1) =
        some (.ret head, w₁) ∧
      (reportsRequest (getSummary {})).runFault reportsStep (reports.exec 0 .raiseAfter)
        (29 + 2) (comeback 1) = some (.ok summary, w') ∧
      summary.retention = none ∧ ¬ SnapshotsKept w₁ w' := by
  constructor
  · obtain ⟨summary, w', hrun, hnone, hkept⟩ := partial_summary_kept_iff {} .raiseAfter (m := 11)
      (n := 2) (w := warmed) ⟨rfl, fun _ => rfl, fun _ => rfl⟩ rfl rfl rfl (by decide) rfl
    exact ⟨_, _, summary, w', rfl, hrun, hnone, hkept.mpr (by decide)⟩
  · obtain ⟨summary, w', hrun, hnone, hkept⟩ := partial_summary_kept_iff {} .raiseAfter (m := 29)
      (n := 2) (w := comeback 1) ⟨rfl, fun _ => rfl, fun _ => rfl⟩ rfl rfl rfl (by decide) rfl
    exact ⟨_, _, summary, w', rfl, hrun, hnone, fun h => absurd (hkept.mp h) (by decide)⟩

end EventAnalytics.Workers
