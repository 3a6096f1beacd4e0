import EventAnalytics.Backend

/-! What no step of one thread can do to another: logs only grow, and an open
transaction belongs to its own session. -/
namespace EventAnalytics

open Library Redis

namespace World

theorem ownsRow_iff {w : World} {i : Nat} {e : UUID} :
    w.ownsRow i e = true ↔ ∃ row ∈ w.ownRows i, row.eventId = e := by
  simp [ownsRow, ownRows]

theorem stored_iff {w : World} {e : UUID} :
    w.stored e = true ↔ ∃ row ∈ w.events, row.eventId = e := by
  simp [stored]

theorem ownRows_dropRows_self (w : World) (i : Nat) :
    ((w.dropRows i).filter fun jr => jr.1 = i).map Prod.snd = [] := by
  simp [dropRows, List.filter_filter]

theorem ownRows_dropRows_ne (w : World) {i j : Nat} (hj : j ≠ i) :
    ((w.dropRows i).filter fun jr => jr.1 = j).map Prod.snd = w.ownRows j := by
  unfold dropRows ownRows
  rw [List.filter_filter]
  congr 1
  apply List.filter_congr
  intro jr _
  by_cases h : jr.1 = j <;> simp [h, hj]

structure Grows (w w' : World) : Prop where
  added : w.stream.added <+: w'.stream.added
  dlq : w.dlq <+: w'.dlq
  events : w.events <+: w'.events

theorem Grows.refl (w : World) : Grows w w :=
  ⟨List.prefix_refl _, List.prefix_refl _, List.prefix_refl _⟩

theorem Grows.trans {a b c : World} (hab : Grows a b) (hbc : Grows b c) : Grows a c :=
  ⟨hab.added.trans hbc.added, hab.dlq.trans hbc.dlq, hab.events.trans hbc.events⟩

theorem Grows.stored {w w' : World} (h : Grows w w') {e : UUID}
    (he : w.stored e = true) : w'.stored e = true := by
  obtain ⟨row, hrow, rfl⟩ := stored_iff.mp he
  exact stored_iff.mpr ⟨row, h.events.subset hrow, rfl⟩

theorem Grows.added? {w w' : World} (h : Grows w w') {id : Nat} {fields : Entry}
    (hid : w.stream.added[id]? = some fields) : w'.stream.added[id]? = some fields := by
  obtain ⟨hlt, hget⟩ := List.getElem?_eq_some_iff.mp hid
  obtain ⟨later, hlater⟩ := h.added
  rw [← hlater, List.getElem?_append_left hlt, hid]

/-- What thread `j` can rely on while others run. -/
structure Frame (j : Nat) (w w' : World) : Prop extends Grows w w' where
  ownRows : w'.ownRows j = w.ownRows j
  aborted : w'.aborted j = w.aborted j

theorem Frame.refl (j : Nat) (w : World) : Frame j w w :=
  ⟨.refl w, rfl, rfl⟩

theorem Frame.trans {j : Nat} {a b c : World} (hab : Frame j a b) (hbc : Frame j b c) :
    Frame j a c :=
  ⟨hab.toGrows.trans hbc.toGrows, hbc.ownRows.trans hab.ownRows,
    hbc.aborted.trans hab.aborted⟩

theorem Frame.ownsRow {j : Nat} {w w' : World} (h : Frame j w w') {e : UUID}
    (he : w.ownsRow j e = true) : w'.ownsRow j e = true := by
  rw [ownsRow_iff] at he ⊢
  rwa [h.ownRows]

structure SameLedger (w w' : World) : Prop where
  stream : w'.stream = w.stream
  dlq : w'.dlq = w.dlq
  events : w'.events = w.events
  uncommitted : w'.uncommitted = w.uncommitted
  aborted : w'.aborted = w.aborted

theorem SameLedger.refl (w : World) : SameLedger w w := ⟨rfl, rfl, rfl, rfl, rfl⟩

theorem SameLedger.ownRows {w w' : World} (h : SameLedger w w') (j : Nat) :
    w'.ownRows j = w.ownRows j := by
  simp [World.ownRows, h.uncommitted]

theorem SameLedger.frame {w w' : World} (h : SameLedger w w') (j : Nat) : Frame j w w' where
  added := by rw [h.stream]
  dlq := by rw [h.dlq]
  events := by rw [h.events]
  ownRows := h.ownRows j
  aborted := by rw [h.aborted]

theorem frame_abortTx (w : World) {i j : Nat} (hj : j ≠ i) : Frame j w (w.abortTx i) where
  added := List.prefix_refl _
  dlq := List.prefix_refl _
  events := List.prefix_refl _
  ownRows := ownRows_dropRows_ne w hj
  aborted := setAt_ne _ _ hj

theorem frame_rollbackTx (w : World) {i j : Nat} (hj : j ≠ i) : Frame j w (w.rollbackTx i) where
  added := List.prefix_refl _
  dlq := List.prefix_refl _
  events := List.prefix_refl _
  ownRows := ownRows_dropRows_ne w hj
  aborted := setAt_ne _ _ hj

theorem events_commitTx (w : World) (i : Nat) : w.events <+: (w.commitTx i).events := by
  unfold commitTx
  split
  · exact List.prefix_refl _
  · exact List.prefix_append _ _

theorem frame_commitTx (w : World) {i j : Nat} (hj : j ≠ i) : Frame j w (w.commitTx i) where
  added := List.prefix_refl _
  dlq := List.prefix_refl _
  events := events_commitTx w i
  ownRows := ownRows_dropRows_ne w hj
  aborted := setAt_ne _ _ hj

end World

/-- Commands that leave the stream, the dead-letter stream and the database as
they are. -/
def Cmd.quiet : Cmd → Bool
  | .now | .uuid4 | .setNx .. | .setXx .. | .setDone .. | .xpendingRange .. | .xlen | .xlenDlq
  | .xinfoGroups | .pfadd .. | .expireHll .. | .evalSlidingWindow .. => true
  | _ => false

theorem effect_quiet {i : Nat} {w w' : World} {c : Cmd} {r : Except Exn c.Resp}
    (hquiet : c.quiet = true) (heff : effect i w c = some (r, w')) : w.SameLedger w' := by
  cases c <;> simp only [Cmd.quiet, Bool.false_eq_true] at hquiet <;>
    simp only [effect, Option.some.injEq, Prod.mk.injEq] at heff
  case setNx e ttl =>
    split at heff
    · cases heff
      exact .refl _
    · split at heff
      · cases heff
        exact .refl _
      · cases heff
        exact ⟨rfl, rfl, rfl, rfl, rfl⟩
  case setXx e ttl =>
    split at heff
    · cases heff
      exact .refl _
    · cases heff
      split
      · exact ⟨rfl, rfl, rfl, rfl, rfl⟩
      · exact .refl _
  case setDone e ttl =>
    split at heff
    · cases heff
      exact .refl _
    · cases heff
      exact ⟨rfl, rfl, rfl, rfl, rfl⟩
  all_goals
    obtain ⟨-, rfl⟩ := heff
    exact ⟨rfl, rfl, rfl, rfl, rfl⟩

theorem exec_quiet {i : Nat} {ch : Choice} {w w' : World} {c : Cmd} {r : Except Exn c.Resp}
    (hquiet : c.quiet = true) (hexec : backend.exec i ch w c = some (r, w')) :
    w.SameLedger w' := by
  cases ch with
  | ok => exact effect_quiet hquiet hexec
  | raiseBefore =>
      simp only [backend, Option.some.injEq, Prod.mk.injEq] at hexec
      obtain ⟨-, rfl⟩ := hexec
      cases c <;> simp_all [Cmd.quiet, beforeEffect, World.SameLedger.refl]
  | raiseAfter =>
      simp only [backend, Option.some.injEq, Prod.mk.injEq] at hexec
      obtain ⟨-, rfl⟩ := hexec
      have hafter : afterEffect i w c = ((effect i w c).map Prod.snd).getD w := by
        cases c <;> first | rfl | simp [Cmd.quiet] at hquiet
      rw [hafter]
      cases heff : effect i w c with
      | none => exact .refl _
      | some rw => exact effect_quiet hquiet heff

theorem exec_insertEvent {i : Nat} {ch : Choice} {w w' : World} {row : EventRow}
    {origin : Origin} {r : Except Exn Bool}
    (hexec : backend.exec i ch w (.insertEvent row origin) = some (r, w')) :
    (r = .ok true ∧ ch = .ok ∧ w.aborted i = false ∧ w.stored row.eventId = false ∧
      w.ownsRow i row.eventId = false ∧ w.heldByOther i row.eventId = false ∧
      w' = { w with uncommitted := w.uncommitted ++ [(i, row)] }) ∨
    (r = .ok false ∧ ch = .ok ∧ w.aborted i = false ∧
      (w.stored row.eventId = true ∨ w.ownsRow i row.eventId = true) ∧ w' = w) ∨
    (r = .error .dbApiError ∧ w' = w ∧
      (ch = .raiseBefore ∨ ch = .ok ∧ w.aborted i = true)) ∨
    (r = .error .dbApiError ∧ w' = w.abortTx i ∧ ch = .raiseAfter) := by
  cases ch with
  | ok =>
      simp only [backend, effect] at hexec
      split at hexec
      · rename_i haborted
        cases hexec
        exact .inr (.inr (.inl ⟨rfl, rfl, .inr ⟨rfl, haborted⟩⟩))
      · rename_i haborted
        split at hexec
        · rename_i hconflict
          cases hexec
          exact .inr (.inl ⟨rfl, rfl, by simpa using haborted,
            by simpa using hconflict, rfl⟩)
        · rename_i hconflict
          split at hexec
          · cases hexec
          · rename_i hheld
            cases hexec
            simp only [Bool.or_eq_true, not_or, Bool.not_eq_true] at hconflict
            exact .inl ⟨rfl, rfl, by simpa using haborted, hconflict.1, hconflict.2,
              by simpa using hheld, rfl⟩
  | raiseBefore =>
      cases hexec
      exact .inr (.inr (.inl ⟨rfl, rfl, .inl rfl⟩))
  | raiseAfter =>
      cases hexec
      exact .inr (.inr (.inr ⟨rfl, rfl, rfl⟩))

theorem exec_selectEvent {i : Nat} {ch : Choice} {w w' : World} {e : UUID} {r : Except Exn Bool}
    (hexec : backend.exec i ch w (.selectEvent e) = some (r, w')) :
    w' = w ∨ w' = w.abortTx i ∧ ∃ exc, r = .error exc := by
  cases ch with
  | ok =>
      simp only [backend, effect] at hexec
      split at hexec <;> cases hexec <;> exact .inl rfl
  | raiseBefore =>
      cases hexec
      exact .inl rfl
  | raiseAfter =>
      cases hexec
      exact .inr ⟨rfl, _, rfl⟩

theorem exec_commit {i : Nat} {ch : Choice} {w w' : World} {r : Except Exn Unit}
    (hexec : backend.exec i ch w .commit = some (r, w')) :
    w' = w.commitTx i ∨ w' = w ∧ ch = .raiseBefore ∧ r = .error .dbApiError := by
  cases ch <;> cases hexec
  · exact .inl rfl
  · exact .inr ⟨rfl, rfl, rfl⟩
  · exact .inl rfl

theorem exec_rollback {i : Nat} {ch : Choice} {w w' : World} {r : Except Exn Unit}
    (hexec : backend.exec i ch w .rollback = some (r, w')) : w' = w.rollbackTx i := by
  cases ch <;> cases hexec <;> rfl

/-- A command on the streams: either nothing happened and it raised, or it had
its effect. -/
theorem exec_stream {i : Nat} {ch : Choice} {w w' : World} {c : Cmd} {r : Except Exn c.Resp}
    {a : c.Resp} {w₁ : World} (heff : effect i w c = some (.ok a, w₁))
    (hbefore : beforeEffect i w c = w) (hafter : afterEffect i w c = w₁)
    (hexec : backend.exec i ch w c = some (r, w')) :
    (w' = w ∧ r = .error c.fault) ∨ (w' = w₁ ∧ (r = .ok a ∨ r = .error c.fault)) := by
  cases ch with
  | ok =>
      simp only [backend, heff, Option.some.injEq, Prod.mk.injEq] at hexec
      exact .inr ⟨hexec.2.symm, .inl hexec.1.symm⟩
  | raiseBefore =>
      simp only [backend, hbefore, Option.some.injEq, Prod.mk.injEq] at hexec
      exact .inl ⟨hexec.2.symm, hexec.1.symm⟩
  | raiseAfter =>
      simp only [backend, hafter, Option.some.injEq, Prod.mk.injEq] at hexec
      exact .inr ⟨hexec.2.symm, .inr hexec.1.symm⟩

def Cmd.sql : Cmd → Bool
  | .insertEvent .. | .selectEvent .. | .commit | .rollback => true
  | _ => false

theorem exec_frame_redis {i : Nat} {ch : Choice} {w w' : World} {c : Cmd}
    {r : Except Exn c.Resp} (hsql : c.sql = false)
    (hexec : backend.exec i ch w c = some (r, w')) (j : Nat) : w.Frame j w' := by
  by_cases hquiet : c.quiet = true
  · exact (exec_quiet hquiet hexec).frame j
  cases c <;> simp only [Cmd.sql, Cmd.quiet, not_true_eq_false, reduceCtorEq] at hsql hquiet
  all_goals
    rcases exec_stream rfl rfl rfl hexec with ⟨rfl, -⟩ | ⟨rfl, -⟩
    · exact .refl j _
    · refine ⟨⟨?_, ?_, List.prefix_refl _⟩, rfl, rfl⟩ <;>
        first | exact List.prefix_append _ _ | exact List.prefix_refl _

theorem exec_frame {i j : Nat} (hj : j ≠ i) {ch : Choice} {w w' : World} {c : Cmd}
    {r : Except Exn c.Resp} (hexec : backend.exec i ch w c = some (r, w')) :
    w.Frame j w' := by
  by_cases hsql : c.sql = false
  · exact exec_frame_redis hsql hexec j
  cases c <;> simp only [Cmd.sql, not_true_eq_false] at hsql
  case insertEvent row origin =>
    rcases exec_insertEvent hexec with h | h | h | h
    · obtain ⟨-, -, -, -, -, -, rfl⟩ := h
      refine ⟨⟨List.prefix_refl _, List.prefix_refl _, List.prefix_refl _⟩, ?_, rfl⟩
      simp [World.ownRows, List.filter_append, Ne.symm hj]
    · rw [h.2.2.2.2]
      exact .refl j w
    · rw [h.2.1]
      exact .refl j w
    · rw [h.2.1]
      exact w.frame_abortTx hj
  case selectEvent e =>
    rcases exec_selectEvent hexec with rfl | ⟨rfl, -⟩
    · exact .refl j _
    · exact w.frame_abortTx hj
  case commit =>
    rcases exec_commit hexec with rfl | ⟨rfl, -⟩
    · exact w.frame_commitTx hj
    · exact .refl j _
  case rollback =>
    rw [exec_rollback hexec]
    exact w.frame_rollbackTx hj

theorem exec_events {i : Nat} {ch : Choice} {w w' : World} {c : Cmd} {r : Except Exn c.Resp}
    (hcommit : c ≠ .commit) (hexec : backend.exec i ch w c = some (r, w')) :
    w'.events = w.events := by
  by_cases hquiet : c.quiet = true
  · exact (exec_quiet hquiet hexec).events
  cases c <;> simp only [Cmd.quiet, not_true_eq_false] at hquiet
  case insertEvent row origin =>
    rcases exec_insertEvent hexec with ⟨-, -, -, -, -, -, rfl⟩ | ⟨-, -, -, -, rfl⟩ |
      ⟨-, rfl, -⟩ | ⟨-, rfl, -⟩ <;> rfl
  case selectEvent e =>
    rcases exec_selectEvent hexec with rfl | ⟨rfl, -⟩ <;> rfl
  case commit => exact absurd rfl hcommit
  case rollback =>
    rw [exec_rollback hexec]
    rfl
  all_goals
    rcases exec_stream rfl rfl rfl hexec with ⟨rfl, -⟩ | ⟨rfl, -⟩ <;> rfl

theorem exec_grows {i : Nat} {ch : Choice} {w w' : World} {c : Cmd} {r : Except Exn c.Resp}
    (hexec : backend.exec i ch w c = some (r, w')) : w.Grows w' :=
  (exec_frame (Nat.succ_ne_self i) hexec).toGrows

theorem crash_frame (w : World) {i j : Nat} (hj : j ≠ i) : w.Frame j (backend.crash i w) :=
  w.frame_rollbackTx hj

theorem env_frame {e : EnvAct} {w w' : World} (henv : backend.env e w = some w') (j : Nat) :
    w.Frame j w' := by
  cases e <;> cases henv
  · exact ⟨⟨List.prefix_refl _, List.prefix_refl _, List.prefix_refl _⟩, rfl, rfl⟩
  · exact ⟨⟨List.prefix_append _ _, List.prefix_refl _, List.prefix_refl _⟩, rfl, rfl⟩

theorem effect_clock {i : Nat} {w w' : World} {c : Cmd} {r : Except Exn c.Resp}
    (heff : effect i w c = some (r, w')) : w'.clock = w.clock := by
  cases c <;> simp only [effect] at heff <;> (try split at heff) <;> (try split at heff) <;>
    (try split at heff) <;> cases heff
  all_goals rfl

theorem exec_clock {i : Nat} {ch : Choice} {w w' : World} {c : Cmd} {r : Except Exn c.Resp}
    (hexec : backend.exec i ch w c = some (r, w')) : w'.clock = w.clock := by
  cases ch with
  | ok => exact effect_clock hexec
  | raiseBefore =>
      cases hexec
      cases c <;> rfl
  | raiseAfter =>
      cases hexec
      have hafter : (((effect i w c).map Prod.snd).getD w).clock = w.clock := by
        cases heff : effect i w c with
        | none => rfl
        | some rw => exact effect_clock heff
      cases c <;> first | rfl | exact hafter

end EventAnalytics
