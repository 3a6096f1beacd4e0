import EventAnalytics.Library.RelyGuarantee

/-! Auxiliary variables. A history kept beside the world records what the
commands did; it never influences them, so every run of the machine is a run of
the machine with its history. -/
namespace EventAnalytics.Library

variable {Cmd : Type} {Resp : Cmd → Type} {Err World Choice Env Aux α : Type}

/-- How the history grows: by what a command answered and how it changed the
world, and by a crash. -/
structure Recorder {Cmd : Type} (Resp : Cmd → Type) (Err World Aux : Type) where
  step : Nat → World → (c : Cmd) → Except Err (Resp c) → World → Aux → Aux
  crash : Nat → World → Aux → Aux

def Machine.recorded (M : Machine Resp Err World Choice Env)
    (R : Recorder Resp Err World Aux) : Machine Resp Err (World × Aux) Choice Env where
  exec i ch w c :=
    (M.exec i ch w.1 c).map fun rw => (rw.1, (rw.2, R.step i w.1 c rw.1 rw.2 w.2))
  crash i w := (M.crash i w.1, R.crash i w.1 w.2)
  env e w := (M.env e w.1).map fun w' => (w', w.2)

theorem Machine.exec_recorded {M : Machine Resp Err World Choice Env}
    {R : Recorder Resp Err World Aux} {i : Nat} {ch : Choice} {w w' : World × Aux} {c : Cmd}
    {r : Except Err (Resp c)} (hexec : (M.recorded R).exec i ch w c = some (r, w')) :
    M.exec i ch w.1 c = some (r, w'.1) ∧ w'.2 = R.step i w.1 c r w'.1 w.2 := by
  obtain ⟨⟨r', w₁⟩, hexec', hr⟩ := Option.map_eq_some_iff.mp hexec
  cases hr
  exact ⟨hexec', rfl⟩

def Policy.recorded (π : Policy Cmd World Choice Env) (Aux : Type) :
    Policy Cmd (World × Aux) Choice Env where
  step i ch w c := π.step i ch w.1 c
  crash i w c := π.crash i w.1 c
  env e w := π.env e w.1

def Config.withAux (cfg : Config Resp Err World α) (aux : Aux) :
    Config Resp Err (World × Aux) α :=
  ⟨(cfg.world, aux), cfg.threads⟩

theorem Policy.admits_recorded (π : Policy Cmd World Choice Env)
    (cfg : Config Resp Err World α) (aux : Aux) (act : Act Choice Env) :
    (π.recorded Aux).admits (cfg.withAux aux) act = π.admits cfg act := by
  cases act <;> rfl

theorem Machine.step_recorded {M : Machine Resp Err World Choice Env}
    (R : Recorder Resp Err World Aux) {cfg next : Config Resp Err World α}
    {act : Act Choice Env} (hstep : M.step cfg act = some next) (aux : Aux) :
    ∃ aux', (M.recorded R).step (cfg.withAux aux) act = some (next.withAux aux') := by
  cases Machine.step_cases hstep with
  | @start i p ht => exact ⟨aux, by simp [Machine.step, Config.withAux, ht]⟩
  | @step i ch c k r w ht hexec =>
      exact ⟨R.step i cfg.world c r w aux, by
        simp [Machine.step, Machine.recorded, Config.withAux, ht, hexec]⟩
  | @crash i c k ht =>
      exact ⟨R.crash i cfg.world aux, by
        simp [Machine.step, Machine.recorded, Config.withAux, ht]⟩
  | @env e w henv =>
      exact ⟨aux, by simp [Machine.step, Machine.recorded, Config.withAux, henv]⟩

theorem Reach.recorded {M : Machine Resp Err World Choice Env}
    {π : Policy Cmd World Choice Env} (R : Recorder Resp Err World Aux)
    {a b : Config Resp Err World α} (hreach : Reach M π a b) (aux : Aux) :
    ∃ aux', Reach (M.recorded R) (π.recorded Aux) (a.withAux aux) (b.withAux aux') := by
  induction hreach with
  | refl => exact ⟨aux, .refl⟩
  | tail act _ hadm hstep ih =>
      obtain ⟨before, hbefore⟩ := ih
      obtain ⟨after, hafter⟩ := Machine.step_recorded R hstep before
      exact ⟨after, .tail act hbefore (by rwa [Policy.admits_recorded]) hafter⟩

/-- What is proved about a program without a history holds with one, under any
discipline that promises at least as much. -/
theorem Discipline.wp_recorded_of_inv {D : Discipline Resp Err World Choice Env}
    {E : Discipline Resp Err (World × Aux) Choice Env} {R : Recorder Resp Err World Aux} {i : Nat}
    (hmachine : E.machine = D.machine.recorded R)
    (hstep : ∀ ch w c, E.inv w → E.policy.step i ch w c = true →
      D.policy.step i ch w.1 c = true)
    (hcrash : ∀ w c, E.policy.crash i w c = true → D.policy.crash i w.1 c = true)
    (hlater : ∀ w w', E.Later i w w' → D.Later i w.1 w'.1)
    (hduty : ∀ w c, E.inv w → D.duty i w.1 c → E.duty i w c)
    {p : Prog Resp Err α} {Q : Outcome Err α → World → Prop} {w : World × Aux} (hinv : E.inv w)
    (hp : D.wp i p Q w.1) : E.wp i p (fun o w => Q o w.1) w := by
  induction p generalizing w with
  | ret a => exact hp
  | raise e => exact hp
  | call c k ih =>
      obtain ⟨hc, hdied, hnext⟩ := hp
      refine ⟨hduty w c hinv hc, fun hadm w' hw' => ?_, fun ch r w' hadm hexec w'' hw'' => ?_⟩
      · have hw := hlater _ _ hw'
        simp only [hmachine, Machine.recorded] at hw
        exact hdied (hcrash w c hadm) _ hw
      · rw [hmachine] at hexec
        exact ih r hw''.1 (hnext ch r w'.1 (hstep ch w c hinv hadm)
          (Machine.exec_recorded hexec).1 _ (hlater _ _ hw''))

theorem Discipline.wp_recorded {D : Discipline Resp Err World Choice Env}
    {E : Discipline Resp Err (World × Aux) Choice Env} {R : Recorder Resp Err World Aux} {i : Nat}
    (hmachine : E.machine = D.machine.recorded R)
    (hstep : ∀ ch w c, E.policy.step i ch w c = true → D.policy.step i ch w.1 c = true)
    (hcrash : ∀ w c, E.policy.crash i w c = true → D.policy.crash i w.1 c = true)
    (hlater : ∀ w w', E.Later i w w' → D.Later i w.1 w'.1)
    (hduty : ∀ w c, E.inv w → D.duty i w.1 c → E.duty i w c)
    {p : Prog Resp Err α} {Q : Outcome Err α → World → Prop} {w : World × Aux} (hinv : E.inv w)
    (hp : D.wp i p Q w.1) : E.wp i p (fun o w => Q o w.1) w :=
  wp_recorded_of_inv hmachine (fun ch w c _ => hstep ch w c) hcrash hlater hduty hinv hp

end EventAnalytics.Library
