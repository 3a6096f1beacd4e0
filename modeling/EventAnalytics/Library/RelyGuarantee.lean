import EventAnalytics.Library.Interleaving

/-! A rely-guarantee logic for interleaved programs. Each thread is verified
alone, against the changes that the others may make between its commands; what
it does itself must be a change that every other thread tolerates. -/
namespace EventAnalytics.Library

inductive Outcome (Err α : Type) : Type
  | ok (a : α)
  | error (e : Err)
  | crashed

def Outcome.ofExcept {Err α : Type} : Except Err α → Outcome Err α
  | .ok a => .ok a
  | .error e => .error e

/-- The agreement between all threads: an invariant of the world, for each thread
the changes that it tolerates from the others, and the duty that each command is
issued under. Commands issued under their duty keep the agreement, and so do
crashes and the environment. -/
structure Discipline {Cmd : Type} (Resp : Cmd → Type) (Err World Choice Env : Type) where
  machine : Machine Resp Err World Choice Env
  policy : Policy Cmd World Choice Env
  inv : World → Prop
  rely : Nat → World → World → Prop
  duty : Nat → World → Cmd → Prop
  rely_refl : ∀ i w, rely i w w
  rely_trans : ∀ i a b c, rely i a b → rely i b c → rely i a c
  step_sound : ∀ i ch w c r w', policy.step i ch w c = true → inv w → duty i w c →
    machine.exec i ch w c = some (r, w') → inv w' ∧ ∀ j, j ≠ i → rely j w w'
  crash_sound : ∀ i w c, policy.crash i w c = true → inv w →
    inv (machine.crash i w) ∧ ∀ j, j ≠ i → rely j w (machine.crash i w)
  env_sound : ∀ e w w', policy.env e w = true → inv w → machine.env e w = some w' →
    inv w' ∧ ∀ j, rely j w w'

namespace Discipline

variable {Cmd : Type} {Resp : Cmd → Type} {Err World Choice Env α β : Type}

/-- What other threads may have made of the world that thread `i` left. -/
def Later (D : Discipline Resp Err World Choice Env) (i : Nat) (w w' : World) : Prop :=
  D.inv w' ∧ D.rely i w w'

/-- `wp D i p Q w`: run by thread `i` from `w`, interfered with after every
command, `p` issues every command under its duty and ends in `Q`. -/
def wp (D : Discipline Resp Err World Choice Env) (i : Nat) :
    Prog Resp Err α → (Outcome Err α → World → Prop) → World → Prop
  | .ret a, Q, w => Q (.ok a) w
  | .raise e, Q, w => Q (.error e) w
  | .call c k, Q, w =>
    D.duty i w c ∧
    (D.policy.crash i w c = true →
      ∀ w', D.Later i (D.machine.crash i w) w' → Q .crashed w') ∧
    ∀ ch r w', D.policy.step i ch w c = true → D.machine.exec i ch w c = some (r, w') →
      ∀ w'', D.Later i w' w'' → wp D i (k r) Q w''

variable {D : Discipline Resp Err World Choice Env} {i : Nat}

theorem Later.refl {w : World} (hinv : D.inv w) : D.Later i w w :=
  ⟨hinv, D.rely_refl i w⟩

theorem Later.trans {a b c : World} (hab : D.Later i a b) (hbc : D.Later i b c) :
    D.Later i a c :=
  ⟨hbc.1, D.rely_trans i _ _ _ hab.2 hbc.2⟩

/-- A crash condition and an exception condition carried past a normal result. -/
def cont (Q : Outcome Err β → World → Prop) (R : α → World → Prop) :
    Outcome Err α → World → Prop
  | .ok a => R a
  | .error e => Q (.error e)
  | .crashed => Q .crashed

@[simp] theorem wp_ret (a : α) (Q : Outcome Err α → World → Prop) (w : World) :
    D.wp i (.ret a) Q w = Q (.ok a) w := rfl

@[simp] theorem wp_raise (e : Err) (Q : Outcome Err α → World → Prop) (w : World) :
    D.wp i (.raise e) Q w = Q (.error e) w := rfl

theorem wp_mono {p : Prog Resp Err α} {Q R : Outcome Err α → World → Prop}
    (hQR : ∀ o w, Q o w → R o w) {w : World} (hp : D.wp i p Q w) : D.wp i p R w := by
  induction p generalizing w with
  | ret a => exact hQR _ _ hp
  | raise e => exact hQR _ _ hp
  | call c k ih =>
      obtain ⟨hduty, hcrash, hstep⟩ := hp
      refine ⟨hduty, fun hadm w' hw' => hQR _ _ (hcrash hadm w' hw'), ?_⟩
      intro ch r w' hadm hexec w'' hw''
      exact ih r (hstep ch r w' hadm hexec w'' hw'')

theorem wp_bind {p : Prog Resp Err α} {f : α → Prog Resp Err β}
    {Q : Outcome Err β → World → Prop} {w : World}
    (hp : D.wp i p (cont Q fun a => D.wp i (f a) Q) w) : D.wp i (p >>= f) Q w := by
  induction p generalizing w with
  | ret a => exact hp
  | raise e => exact hp
  | call c k ih =>
      obtain ⟨hduty, hcrash, hstep⟩ := hp
      refine ⟨hduty, hcrash, fun ch r w' hadm hexec w'' hw'' => ?_⟩
      exact ih r (hstep ch r w' hadm hexec w'' hw'')

def handled (Q : Outcome Err α → World → Prop) (R : Err → World → Prop) :
    Outcome Err α → World → Prop
  | .ok a => Q (.ok a)
  | .error e => R e
  | .crashed => Q .crashed

theorem wp_tryExcept {p : Prog Resp Err α} {h : Err → Prog Resp Err α}
    {Q : Outcome Err α → World → Prop} {w : World}
    (hp : D.wp i p (handled Q fun e => D.wp i (h e) Q) w) :
    D.wp i (p.tryExcept h) Q w := by
  induction p generalizing w with
  | ret a => exact hp
  | raise e => exact hp
  | call c k ih =>
      obtain ⟨hduty, hcrash, hstep⟩ := hp
      refine ⟨hduty, hcrash, fun ch r w' hadm hexec w'' hw'' => ?_⟩
      exact ih r (hstep ch r w' hadm hexec w'' hw'')

/-- The rule for a single command: its duty, what a crash leaves, and what each
admitted answer leaves. -/
theorem wp_perform {c : Cmd} {Q : Outcome Err (Resp c) → World → Prop} {w : World}
    (hduty : D.duty i w c)
    (hcrash : D.policy.crash i w c = true →
      ∀ w', D.Later i (D.machine.crash i w) w' → Q .crashed w')
    (hstep : ∀ ch r w', D.policy.step i ch w c = true →
      D.machine.exec i ch w c = some (r, w') →
      ∀ w'', D.Later i w' w'' → Q (.ofExcept r) w'') :
    D.wp i (.perform c) Q w := by
  refine ⟨hduty, hcrash, fun ch r w' hadm hexec w'' hw'' => ?_⟩
  have hQ := hstep ch r w' hadm hexec w'' hw''
  cases r with
  | ok a => exact hQ
  | error e => exact hQ

theorem wp_perform_bind {c : Cmd} {f : Resp c → Prog Resp Err β}
    {Q : Outcome Err β → World → Prop} {w : World} (hduty : D.duty i w c)
    (hcrash : D.policy.crash i w c = true →
      ∀ w', D.Later i (D.machine.crash i w) w' → Q .crashed w')
    (herror : ∀ ch e w', D.policy.step i ch w c = true →
      D.machine.exec i ch w c = some (.error e, w') →
      ∀ w'', D.Later i w' w'' → Q (.error e) w'')
    (hok : ∀ ch a w', D.policy.step i ch w c = true →
      D.machine.exec i ch w c = some (.ok a, w') →
      ∀ w'', D.Later i w' w'' → D.wp i (f a) Q w'') :
    D.wp i (.perform c >>= f) Q w := by
  refine wp_bind (wp_perform hduty hcrash fun ch r w' hadm hexec w'' hw'' => ?_)
  cases r with
  | ok a => exact hok ch a w' hadm hexec w'' hw''
  | error e => exact herror ch e w' hadm hexec w'' hw''

/-- A condition on how a program ends that asks nothing of a crash. -/
def ends (R : α → World → Prop) (E : Err → World → Prop) : Outcome Err α → World → Prop
  | .ok a => R a
  | .error e => E e
  | .crashed => fun _ => True

/-- What every crash of a thread leaves, a crash inside its program leaves. -/
theorem wp_crashing {p : Prog Resp Err α} {R : α → World → Prop} {E : Err → World → Prop}
    {C : World → Prop} (hcrash : ∀ w w', D.Later i (D.machine.crash i w) w' → C w') {w : World}
    (hp : D.wp i p (ends R E) w) : D.wp i p (fun
      | .ok a => R a
      | .error e => E e
      | .crashed => C) w := by
  induction p generalizing w with
  | ret a => exact hp
  | raise e => exact hp
  | call c k ih =>
      obtain ⟨hduty, -, hstep⟩ := hp
      exact ⟨hduty, fun _ w' hw' => hcrash w w' hw', fun ch r w' hadm hexec w'' hw'' =>
        ih r (hstep ch r w' hadm hexec w'' hw'')⟩

/-- What no command and no other thread changes holds at the end, too. -/
theorem wp_frame {p : Prog Resp Err α} {R : α → World → Prop} {E : Err → World → Prop}
    {J : World → Prop}
    (hexec : ∀ ch c r w w', D.machine.exec i ch w c = some (r, w') → J w → J w')
    (hrely : ∀ w w', D.rely i w w' → J w → J w') {w : World} (hp : D.wp i p (ends R E) w)
    (hJ : J w) : D.wp i p (ends (fun a w => R a w ∧ J w) E) w := by
  induction p generalizing w with
  | ret a => exact ⟨hp, hJ⟩
  | raise e => exact hp
  | call c k ih =>
      obtain ⟨hduty, -, hstep⟩ := hp
      refine ⟨hduty, fun _ _ _ => trivial, fun ch r w' hadm hw' w'' hw'' => ?_⟩
      exact ih r (hstep ch r w' hadm hw' w'' hw'')
        (hrely w' w'' hw''.2 (hexec ch c r w w' hw' hJ))

theorem wp_perform_any {c : Cmd} {w : World} (hduty : D.duty i w c) :
    D.wp i (.perform c) (ends (fun _ _ => True) fun _ _ => True) w := by
  apply wp_perform hduty (fun _ _ _ => trivial)
  intro ch r w' _ _ w'' _
  cases r <;> trivial

theorem wp_seq {p : Prog Resp Err α} {f : α → Prog Resp Err β} {R : β → World → Prop}
    {S : α → World → Prop} {E : Err → World → Prop} {w : World} (hp : D.wp i p (ends S E) w)
    (hf : ∀ a w', S a w' → D.wp i (f a) (ends R E) w') : D.wp i (p >>= f) (ends R E) w := by
  refine wp_bind (wp_mono (fun o w' ho => ?_) hp)
  cases o with
  | ok a => exact hf a w' ho
  | error e => exact ho
  | crashed => trivial

theorem wp_seq_ofExcept {r : Except Err α} {f : α → Prog Resp Err β} {R : β → World → Prop}
    {E : Err → World → Prop} {w : World} (herror : ∀ e, r = .error e → E e w)
    (hok : ∀ a, r = .ok a → D.wp i (f a) (ends R E) w) :
    D.wp i (Prog.ofExcept r >>= f) (ends R E) w := by
  cases r with
  | ok a => exact hok a rfl
  | error e => exact herror e rfl

theorem wp_try {p : Prog Resp Err α} {h : Err → Prog Resp Err α} {R : α → World → Prop}
    {E F : Err → World → Prop} {w : World} (hp : D.wp i p (ends R F) w)
    (hh : ∀ e w', F e w' → D.wp i (h e) (ends R E) w') :
    D.wp i (p.tryExcept h) (ends R E) w := by
  refine wp_tryExcept (wp_mono (fun o w' ho => ?_) hp)
  cases o with
  | ok a => exact ho
  | error e => exact hh e w' ho
  | crashed => trivial

theorem wp_ends_mono {p : Prog Resp Err α} {R S : α → World → Prop} {E F : Err → World → Prop}
    {w : World} (hR : ∀ a w', S a w' → R a w') (hE : ∀ e w', F e w' → E e w')
    (hp : D.wp i p (ends S F) w) : D.wp i p (ends R E) w := by
  refine wp_mono (fun o w' ho => ?_) hp
  cases o with
  | ok a => exact hR a w' ho
  | error e => exact hE e w' ho
  | crashed => trivial

def ThreadOk (D : Discipline Resp Err World Choice Env) (i : Nat)
    (Q : Outcome Err α → World → Prop) (w : World) : Thread Resp Err α → Prop
  | .ready p => ∀ w', D.Later i w w' → D.wp i p Q w'
  | .running p => ∀ w', D.Later i w w' → D.wp i p Q w'
  | .crashed => ∀ w', D.Later i w w' → Q .crashed w'

theorem ThreadOk.later {Q : Outcome Err α → World → Prop} {w w' : World}
    {t : Thread Resp Err α} (ht : D.ThreadOk i Q w t) (hw : D.Later i w w') :
    D.ThreadOk i Q w' t := by
  cases t with
  | ready p => exact fun v hv => ht v (hw.trans hv)
  | running p => exact fun v hv => ht v (hw.trans hv)
  | crashed => exact fun v hv => ht v (hw.trans hv)

/-- The agreement holds in a configuration: the invariant, and what each thread
still has to do. -/
structure Keeps (D : Discipline Resp Err World Choice Env)
    (Q : Nat → Outcome Err α → World → Prop) (cfg : Config Resp Err World α) : Prop where
  inv : D.inv cfg.world
  threads : ∀ i, D.ThreadOk i (Q i) cfg.world (cfg.threads i)

/-- A step of thread `i` that the others tolerate keeps the agreement. -/
theorem Keeps.update {Q : Nat → Outcome Err α → World → Prop}
    {cfg : Config Resp Err World α} (hkeeps : D.Keeps Q cfg) {w : World}
    (howes : D.inv w ∧ ∀ j, j ≠ i → D.rely j cfg.world w) {t : Thread Resp Err α}
    (ht : D.ThreadOk i (Q i) w t) :
    D.Keeps Q ⟨w, setAt cfg.threads i t⟩ := by
  refine ⟨howes.1, fun j => ?_⟩
  by_cases hj : j = i
  · subst hj
    simpa using ht
  · simp only [setAt_ne _ _ hj]
    exact (hkeeps.threads j).later ⟨howes.1, howes.2 j hj⟩

theorem Keeps.step {Q : Nat → Outcome Err α → World → Prop}
    {cfg next : Config Resp Err World α} (hkeeps : D.Keeps Q cfg) (act : Act Choice Env)
    (hadm : D.policy.admits cfg act = true) (hstep : D.machine.step cfg act = some next) :
    D.Keeps Q next := by
  cases Machine.step_cases hstep with
  | @start i p ht =>
      have hti := hkeeps.threads i
      rw [ht] at hti
      exact hkeeps.update ⟨hkeeps.inv, fun j _ => D.rely_refl j _⟩ hti
  | @step i ch c k r w ht hexec =>
      have hti := hkeeps.threads i
      rw [ht] at hti
      obtain ⟨hduty, -, hnext⟩ := hti _ (Later.refl hkeeps.inv)
      simp only [Policy.admits, ht] at hadm
      exact hkeeps.update (D.step_sound i ch _ c r w hadm hkeeps.inv hduty hexec)
        (hnext ch r w hadm hexec)
  | @crash i c k ht =>
      have hti := hkeeps.threads i
      rw [ht] at hti
      obtain ⟨-, hcrash, -⟩ := hti _ (Later.refl hkeeps.inv)
      simp only [Policy.admits, ht] at hadm
      exact hkeeps.update (D.crash_sound i _ c hadm hkeeps.inv) (hcrash hadm)
  | @env e w henv =>
      obtain ⟨hinv, hrely⟩ := D.env_sound e cfg.world w hadm hkeeps.inv henv
      exact ⟨hinv, fun j => (hkeeps.threads j).later ⟨hinv, hrely j⟩⟩

/-- Soundness: threads verified one by one keep the agreement in every run. -/
theorem Keeps.reach {Q : Nat → Outcome Err α → World → Prop}
    {cfg next : Config Resp Err World α} (hkeeps : D.Keeps Q cfg)
    (hreach : Reach D.machine D.policy cfg next) : D.Keeps Q next := by
  induction hreach with
  | refl => exact hkeeps
  | tail act _ hadm hstep ih => exact ih.step act hadm hstep

/-- The starting point of `Keeps.reach`: every thread ready with a program that
is verified from the initial world on. -/
theorem keeps_ready {Q : Nat → Outcome Err α → World → Prop} {w : World} (hinv : D.inv w)
    (prog : Nat → Prog Resp Err α)
    (hprog : ∀ i w', D.Later i w w' → D.wp i (prog i) (Q i) w') :
    D.Keeps Q ⟨w, fun i => .ready (prog i)⟩ :=
  ⟨hinv, fun i => hprog i⟩

theorem Keeps.step_rely {Q : Nat → Outcome Err α → World → Prop}
    {cfg next : Config Resp Err World α} (hkeeps : D.Keeps Q cfg) {act : Act Choice Env}
    (hadm : D.policy.admits cfg act = true) (hstep : D.machine.step cfg act = some next)
    (hi : act.thread? ≠ some i) : D.rely i cfg.world next.world := by
  cases Machine.step_cases hstep with
  | start ht => exact D.rely_refl i _
  | @step j ch c k r w ht hexec =>
      have htj := hkeeps.threads j
      rw [ht] at htj
      obtain ⟨hduty, -, -⟩ := htj _ (Later.refl hkeeps.inv)
      simp only [Policy.admits, ht] at hadm
      exact (D.step_sound j ch _ c r w hadm hkeeps.inv hduty hexec).2 i
        fun h => hi (congrArg some h.symm)
  | @crash j c k ht =>
      simp only [Policy.admits, ht] at hadm
      exact (D.crash_sound j _ c hadm hkeeps.inv).2 i fun h => hi (congrArg some h.symm)
  | @env e w henv => exact (D.env_sound e _ w hadm hkeeps.inv henv).2 i

theorem Keeps.ready {Q : Nat → Outcome Err α → World → Prop} {cfg next : Config Resp Err World α}
    (hkeeps : D.Keeps Q cfg) (hreach : Reach D.machine D.policy cfg next) {p : Prog Resp Err α}
    (hready : next.threads i = .ready p) : D.rely i cfg.world next.world := by
  induction hreach with
  | refl => exact D.rely_refl i _
  | @tail b c act hbefore hadm hstep ih =>
      have hother : act.thread? ≠ some i := by
        rintro hact
        cases Machine.step_cases hstep with
        | start ht | step ht hexec | crash ht =>
            cases hact
            simp at hready
        | env henv => cases hact
      have hthreads := Machine.step_threads_ne hstep hother
      exact D.rely_trans i _ _ _ (ih (hthreads.symm.trans hready))
        ((hkeeps.reach hbefore).step_rely hadm hstep hother)

theorem Keeps.returned {Q : Nat → Outcome Err α → World → Prop}
    {cfg : Config Resp Err World α} (hkeeps : D.Keeps Q cfg) {a : α}
    (ht : cfg.threads i = .running (.ret a)) : Q i (.ok a) cfg.world := by
  have hti := hkeeps.threads i
  rw [ht] at hti
  exact hti _ (Later.refl hkeeps.inv)

theorem Keeps.duty {Q : Nat → Outcome Err α → World → Prop} {cfg : Config Resp Err World α}
    (hkeeps : D.Keeps Q cfg) {c : Cmd} {k : Except Err (Resp c) → Prog Resp Err α}
    (ht : cfg.threads i = .running (.call c k)) : D.duty i cfg.world c := by
  have hti := hkeeps.threads i
  rw [ht] at hti
  exact (hti _ (Later.refl hkeeps.inv)).1

/-- A thread that is not in progress is ready, or its program's outcome holds. -/
theorem Keeps.atRest {Q : Nat → Outcome Err α → World → Prop} {cfg : Config Resp Err World α}
    (hkeeps : D.Keeps Q cfg) (hrest : (cfg.threads i).inProgress = false) :
    (∃ p, cfg.threads i = .ready p) ∨ ∃ o, Q i o cfg.world := by
  have hti := hkeeps.threads i
  cases ht : cfg.threads i with
  | ready p => exact .inl ⟨p, rfl⟩
  | crashed =>
      rw [ht] at hti
      exact .inr ⟨.crashed, hti _ (Later.refl hkeeps.inv)⟩
  | running p =>
      rw [ht] at hti
      have hp := hti _ (Later.refl hkeeps.inv)
      cases p with
      | ret a => exact .inr ⟨.ok a, hp⟩
      | raise e => exact .inr ⟨.error e, hp⟩
      | call c k => simp [ht, Thread.inProgress] at hrest

end Discipline

end EventAnalytics.Library
