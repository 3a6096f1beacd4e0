import EventAnalytics.Library.Program

/-! Programs run to their end as one step, on an interpreter of the commands. -/
namespace EventAnalytics.Library

variable {Cmd : Type} {Resp : Cmd → Type} {Err World α β : Type}

namespace Prog

/-- `p.run f w`: how `p` ends and where, when `f` says what each command does.
`none` is a command that blocks. -/
def run (f : World → (c : Cmd) → Option (Except Err (Resp c) × World)) :
    Prog Resp Err α → World → Option (Except Err α × World)
  | ret a, w => some (.ok a, w)
  | raise e, w => some (.error e, w)
  | call c k, w => (f w c).bind fun rw => (k rw.1).run f rw.2

variable {f : World → (c : Cmd) → Option (Except Err (Resp c) × World)}

def runThen (f : World → (c : Cmd) → Option (Except Err (Resp c) × World))
    (q : α → Prog Resp Err β) : Except Err α × World → Option (Except Err β × World)
  | (.ok a, w) => (q a).run f w
  | (.error e, w) => some (.error e, w)

def runHandler (f : World → (c : Cmd) → Option (Except Err (Resp c) × World))
    (h : Err → Prog Resp Err α) : Except Err α × World → Option (Except Err α × World)
  | (.ok a, w) => some (.ok a, w)
  | (.error e, w) => (h e).run f w

theorem run_bind (p : Prog Resp Err α) (q : α → Prog Resp Err β) (w : World) :
    (p >>= q).run f w = (p.run f w).bind (runThen f q) := by
  induction p generalizing w with
  | ret a => rfl
  | raise e => rfl
  | call c k ih =>
      calc ((f w c).bind fun rw => (k rw.1 >>= q).run f rw.2)
          = (f w c).bind fun rw => ((k rw.1).run f rw.2).bind (runThen f q) := by
            congr 1
            funext rw
            exact ih rw.1 rw.2
        _ = ((f w c).bind fun rw => (k rw.1).run f rw.2).bind (runThen f q) :=
            (Option.bind_assoc _ _ _).symm

theorem run_tryExcept (p : Prog Resp Err α) (h : Err → Prog Resp Err α) (w : World) :
    (p.tryExcept h).run f w = (p.run f w).bind (runHandler f h) := by
  induction p generalizing w with
  | ret a => rfl
  | raise e => rfl
  | call c k ih =>
      calc ((f w c).bind fun rw => ((k rw.1).tryExcept h).run f rw.2)
          = (f w c).bind fun rw => ((k rw.1).run f rw.2).bind (runHandler f h) := by
            congr 1
            funext rw
            exact ih rw.1 rw.2
        _ = ((f w c).bind fun rw => (k rw.1).run f rw.2).bind (runHandler f h) :=
            (Option.bind_assoc _ _ _).symm

theorem run_ofExcept (r : Except Err α) (w : World) :
    (ofExcept r : Prog Resp Err α).run f w = some (r, w) := by
  cases r <;> rfl

theorem run_perform (c : Cmd) (w : World) : (perform c : Prog Resp Err _).run f w = f w c := by
  change ((f w c).bind fun rw => (ofExcept rw.1).run f rw.2) = f w c
  simp only [run_ofExcept]
  exact Option.bind_fun_some _

theorem run_bind_ok {p : Prog Resp Err α} {q : α → Prog Resp Err β} {w w' : World} {a : α}
    (hp : p.run f w = some (.ok a, w')) : (p >>= q).run f w = (q a).run f w' := by
  rw [run_bind, hp]
  rfl

theorem run_bind_error {p : Prog Resp Err α} {q : α → Prog Resp Err β} {w w' : World} {e : Err}
    (hp : p.run f w = some (.error e, w')) : (p >>= q).run f w = some (.error e, w') := by
  rw [run_bind, hp]
  rfl

theorem run_bind_inv {p : Prog Resp Err α} {q : α → Prog Resp Err β} {w w' : World} {b : β}
    (h : (p >>= q).run f w = some (.ok b, w')) :
    ∃ a w₁, p.run f w = some (.ok a, w₁) ∧ (q a).run f w₁ = some (.ok b, w') := by
  rw [run_bind] at h
  obtain ⟨⟨r, w₁⟩, hp, hq⟩ := Option.bind_eq_some_iff.mp h
  cases r with
  | ok a => exact ⟨a, w₁, hp, hq⟩
  | error e => cases hq

theorem run_perform_ok {c : Cmd} {q : Resp c → Prog Resp Err β} {w w' : World} {a : Resp c}
    (hc : f w c = some (.ok a, w')) : (perform c >>= q).run f w = (q a).run f w' :=
  run_bind_ok ((run_perform c w).trans hc)

theorem run_perform_error {c : Cmd} {q : Resp c → Prog Resp Err β} {w w' : World} {e : Err}
    (hc : f w c = some (.error e, w')) : (perform c >>= q).run f w = some (.error e, w') :=
  run_bind_error ((run_perform c w).trans hc)

theorem run_perform_inv {c : Cmd} {q : Resp c → Prog Resp Err β} {w w' : World} {b : β}
    (h : (perform c >>= q).run f w = some (.ok b, w')) :
    ∃ a w₁, f w c = some (.ok a, w₁) ∧ (q a).run f w₁ = some (.ok b, w') := by
  obtain ⟨a, w₁, hc, hq⟩ := run_bind_inv h
  exact ⟨a, w₁, (run_perform c w).symm.trans hc, hq⟩

theorem run_tryExcept_ok {p : Prog Resp Err α} {h : Err → Prog Resp Err α} {w w' : World} {a : α}
    (hp : p.run f w = some (.ok a, w')) : (p.tryExcept h).run f w = some (.ok a, w') := by
  rw [run_tryExcept, hp]
  rfl

theorem run_tryExcept_error {p : Prog Resp Err α} {h : Err → Prog Resp Err α} {w w' : World}
    {e : Err} (hp : p.run f w = some (.error e, w')) :
    (p.tryExcept h).run f w = (h e).run f w' := by
  rw [run_tryExcept, hp]
  rfl

theorem run_tryExcept_inv {p : Prog Resp Err α} {h : Err → Prog Resp Err α} {w w' : World} {a : α}
    (hrun : (p.tryExcept h).run f w = some (.ok a, w')) :
    p.run f w = some (.ok a, w') ∨
      ∃ e w₁, p.run f w = some (.error e, w₁) ∧ (h e).run f w₁ = some (.ok a, w') := by
  rw [run_tryExcept] at hrun
  obtain ⟨⟨r, w₁⟩, hp, hr⟩ := Option.bind_eq_some_iff.mp hrun
  cases r with
  | ok b =>
      cases hr
      exact .inl hp
  | error e => exact .inr ⟨e, w₁, hp, hr⟩

/-- From related worlds the program ends alike, in related worlds. -/
def Lockstep (f : World → (c : Cmd) → Option (Except Err (Resp c) × World))
    (R : World → World → Prop) (p : Prog Resp Err α) : Prop :=
  ∀ w w', R w w' → ∃ r v v', p.run f w = some (r, v) ∧ p.run f w' = some (r, v') ∧ R v v'

theorem lockstep_ret {R : World → World → Prop} (a : α) :
    Lockstep f R (.ret a : Prog Resp Err α) :=
  fun w w' h => ⟨.ok a, w, w', rfl, rfl, h⟩

theorem Lockstep.bind {R : World → World → Prop} {p : Prog Resp Err α}
    {q : α → Prog Resp Err β} (hp : Lockstep f R p) (hq : ∀ a, Lockstep f R (q a)) :
    Lockstep f R (p >>= q) := by
  intro w w' h
  obtain ⟨r, v, v', hrun, hrun', hR⟩ := hp w w' h
  cases r with
  | error e => exact ⟨.error e, v, v', run_bind_error hrun, run_bind_error hrun', hR⟩
  | ok a =>
      rw [run_bind_ok hrun, run_bind_ok hrun']
      exact hq a v v' hR

end Prog

end EventAnalytics.Library
