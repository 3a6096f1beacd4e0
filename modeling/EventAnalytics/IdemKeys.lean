import EventAnalytics.Frame

/-! The keys `idem:{event_id}`: which commands touch them, and how. -/
namespace EventAnalytics

open Library Redis

namespace World

theorem hasKey_congr {w w' : World} (hclock : w'.clock = w.clock) (hidem : w'.idem = w.idem)
    (e : UUID) : w'.hasKey e = w.hasKey e := by
  simp [hasKey, hclock, hidem]

theorem hasKey_setKey_ne {w : World} {e e' : UUID} (hne : e' ≠ e) (s : IdemStatus) (ttl : Nat) :
    (w.setKey e s ttl).hasKey e' = w.hasKey e' := by
  have hidem : (w.setKey e s ttl).idem e' = w.idem e' := by simp [setKey, hne]
  unfold hasKey
  rw [hidem]
  rfl

theorem hasKey_setKey_self {w : World} {e : UUID} {s : IdemStatus} {ttl : Nat} (httl : 0 < ttl) :
    (w.setKey e s ttl).hasKey e = true := by
  have hidem : (w.setKey e s ttl).idem e = some ⟨s, w.clock + ttl * 1000⟩ := by simp [setKey]
  have hlt : w.clock < w.clock + ttl * 1000 := by omega
  unfold hasKey
  rw [hidem]
  exact decide_eq_true hlt

theorem hasKey_of_tick {w : World} {ms : Nat} {e : UUID}
    (h : { w with clock := w.clock + ms }.hasKey e = true) : w.hasKey e = true := by
  unfold hasKey at h ⊢
  cases hkey : w.idem e with
  | none => simp [hkey] at h
  | some key =>
      simp only [hkey, decide_eq_true_eq] at h ⊢
      omega

end World

def Cmd.keyed : Cmd → Bool
  | .setNx .. | .setXx .. | .setDone .. => true
  | _ => false

theorem exec_setNx {i : Nat} {ch : Choice} {w w' : World} {e : UUID} {ttl : Nat}
    {r : Except Exn Bool} (hexec : backend.exec i ch w (.setNx e ttl) = some (r, w')) :
    (r = .ok false ∧ w.hasKey e = true ∧ 0 < ttl ∧ w' = w) ∨
    (r = .ok true ∧ w.hasKey e = false ∧ 0 < ttl ∧ w' = w.setKey e .pending ttl) ∨
    (∃ exc, r = .error exc ∧ w' = w) ∨
    (∃ exc, r = .error exc ∧ ch = .raiseAfter ∧ w.hasKey e = false ∧
      w' = w.setKey e .pending ttl) := by
  cases ch with
  | ok =>
      simp only [backend, effect] at hexec
      split at hexec
      · cases hexec
        exact .inr (.inr (.inl ⟨_, rfl, rfl⟩))
      · rename_i httl
        split at hexec
        · rename_i hkey
          cases hexec
          exact .inl ⟨rfl, hkey, Nat.pos_of_ne_zero httl, rfl⟩
        · rename_i hkey
          cases hexec
          exact .inr (.inl ⟨rfl, by simpa using hkey, Nat.pos_of_ne_zero httl, rfl⟩)
  | raiseBefore =>
      cases hexec
      exact .inr (.inr (.inl ⟨_, rfl, rfl⟩))
  | raiseAfter =>
      simp only [backend, afterEffect, effect] at hexec
      split at hexec
      · cases hexec
        exact .inr (.inr (.inl ⟨_, rfl, rfl⟩))
      · split at hexec
        · cases hexec
          exact .inr (.inr (.inl ⟨_, rfl, rfl⟩))
        · rename_i hkey
          cases hexec
          exact .inr (.inr (.inr ⟨_, rfl, rfl, by simpa using hkey, rfl⟩))

theorem exec_setXx {i : Nat} {ch : Choice} {w w' : World} {e : UUID} {ttl : Nat}
    {r : Except Exn Unit} (hexec : backend.exec i ch w (.setXx e ttl) = some (r, w')) :
    w' = w ∨ w.hasKey e = true ∧ 0 < ttl ∧ w' = w.setKey e .done ttl := by
  by_cases httl : ttl = 0
  · left
    cases ch <;> simp [backend, effect, beforeEffect, afterEffect, httl] at hexec <;>
      exact hexec.2.symm
  · have heff : effect i w (.setXx e ttl) =
        some (.ok (), if w.hasKey e then w.setKey e .done ttl else w) := by
      simp [effect, httl]
    have hafter : afterEffect i w (.setXx e ttl) =
        if w.hasKey e then w.setKey e .done ttl else w := by
      simp [afterEffect, heff]
    rcases exec_stream heff rfl hafter hexec with ⟨rfl, -⟩ | ⟨rfl, -⟩
    · exact .inl rfl
    · split
      · rename_i hkey
        exact .inr ⟨hkey, Nat.pos_of_ne_zero httl, rfl⟩
      · exact .inl rfl

theorem exec_setDone {i : Nat} {ch : Choice} {w w' : World} {e : UUID} {ttl : Nat}
    {r : Except Exn Unit} (hexec : backend.exec i ch w (.setDone e ttl) = some (r, w')) :
    w' = w ∨ 0 < ttl ∧ w' = w.setKey e .done ttl := by
  by_cases httl : ttl = 0
  · left
    cases ch <;> simp [backend, effect, beforeEffect, afterEffect, httl] at hexec <;>
      exact hexec.2.symm
  · have heff : effect i w (.setDone e ttl) = some (.ok (), w.setKey e .done ttl) := by
      simp [effect, httl]
    have hafter : afterEffect i w (.setDone e ttl) = w.setKey e .done ttl := by
      simp [afterEffect, heff]
    rcases exec_stream heff rfl hafter hexec with ⟨rfl, -⟩ | ⟨rfl, -⟩
    · exact .inl rfl
    · exact .inr ⟨Nat.pos_of_ne_zero httl, rfl⟩

/-- Every other command leaves the keys alone, and none moves the clock. -/
theorem exec_keys {i : Nat} {ch : Choice} {w w' : World} {c : Cmd} {r : Except Exn c.Resp}
    (hkeyed : c.keyed = false) (hexec : backend.exec i ch w c = some (r, w')) :
    w'.clock = w.clock ∧ w'.idem = w.idem := by
  cases c <;> simp only [Cmd.keyed, reduceCtorEq] at hkeyed
  case insertEvent row origin =>
    rcases exec_insertEvent hexec with ⟨-, -, -, -, -, -, rfl⟩ | ⟨-, -, -, -, rfl⟩ |
      ⟨-, rfl, -⟩ | ⟨-, rfl, -⟩ <;> exact ⟨rfl, rfl⟩
  case selectEvent e =>
    rcases exec_selectEvent hexec with rfl | ⟨rfl, -⟩ <;> exact ⟨rfl, rfl⟩
  case commit =>
    rcases exec_commit hexec with rfl | ⟨rfl, -⟩ <;> exact ⟨rfl, rfl⟩
  case rollback =>
    rw [exec_rollback hexec]
    exact ⟨rfl, rfl⟩
  all_goals
    rcases exec_stream rfl rfl rfl hexec with ⟨rfl, -⟩ | ⟨rfl, -⟩ <;> exact ⟨rfl, rfl⟩

theorem exec_hasKey {i : Nat} {ch : Choice} {w w' : World} {c : Cmd} {r : Except Exn c.Resp}
    {e : UUID} (hkey : w.hasKey e = true) (hexec : backend.exec i ch w c = some (r, w')) :
    w'.hasKey e = true := by
  have hset : ∀ {e' s ttl}, 0 < ttl → (w.setKey e' s ttl).hasKey e = true := by
    intro e' s ttl httl
    by_cases heq : e = e'
    · exact heq ▸ World.hasKey_setKey_self httl
    · rwa [World.hasKey_setKey_ne heq]
  cases c with
  | setNx e' ttl =>
      have hother : w.hasKey e' = false → (w.setKey e' .pending ttl).hasKey e = true := by
        intro hfree
        have hne : e ≠ e' := by
          rintro rfl
          simp [hkey] at hfree
        rwa [World.hasKey_setKey_ne hne]
      rcases exec_setNx hexec with ⟨-, -, -, rfl⟩ | ⟨-, hfree, -, rfl⟩ | ⟨_, -, rfl⟩ |
        ⟨_, -, -, hfree, rfl⟩
      · exact hkey
      · exact hother hfree
      · exact hkey
      · exact hother hfree
  | setXx e' ttl =>
      rcases exec_setXx hexec with rfl | ⟨-, httl, rfl⟩
      · exact hkey
      · exact hset httl
  | setDone e' ttl =>
      rcases exec_setDone hexec with rfl | ⟨httl, rfl⟩
      · exact hkey
      · exact hset httl
  | _ =>
      have hkeys := exec_keys rfl hexec
      rwa [World.hasKey_congr hkeys.1 hkeys.2]

end EventAnalytics
