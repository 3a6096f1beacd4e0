import EventAnalytics.Library.Program

/-! Interleavings of any number of programs over one shared world. The commands
are the atomic steps: between two commands of one thread any other thread, the
environment or a crash may intervene. -/
namespace EventAnalytics.Library

def setAt {β : Type} (f : Nat → β) (i : Nat) (x : β) : Nat → β :=
  fun j => if j = i then x else f j

@[simp] theorem setAt_self {β : Type} (f : Nat → β) (i : Nat) (x : β) :
    setAt f i x i = x := by
  simp [setAt]

theorem setAt_ne {β : Type} (f : Nat → β) {i j : Nat} (x : β) (h : j ≠ i) :
    setAt f i x j = f j := by
  simp [setAt, h]

theorem setAt_same {β : Type} {f : Nat → β} {i : Nat} {x : β} (h : f i = x) : setAt f i x = f := by
  funext j
  by_cases hj : j = i
  · subst hj
    rw [setAt_self, h]
  · exact setAt_ne f x hj

/-- What the commands do. `exec i ch w c` is the effect of command `c` issued by
thread `i`; the scheduler's choice `ch` resolves what the source leaves open,
and `none` says that the command blocks. A crash of thread `i` is what the
stores do when its connections are lost. -/
structure Machine {Cmd : Type} (Resp : Cmd → Type) (Err World Choice Env : Type) where
  exec : Nat → Choice → World → (c : Cmd) → Option (Except Err (Resp c) × World)
  crash : Nat → World → World
  env : Env → World → Option World

/-- A thread is ready until its first step, then running until its program has
ended or it has crashed. -/
inductive Thread {Cmd : Type} (Resp : Cmd → Type) (Err α : Type) : Type
  | ready (p : Prog Resp Err α)
  | running (p : Prog Resp Err α)
  | crashed

def Thread.result? {Cmd : Type} {Resp : Cmd → Type} {Err α : Type} :
    Thread Resp Err α → Option α
  | running (.ret a) => some a
  | _ => none

def Thread.isCrashed {Cmd : Type} {Resp : Cmd → Type} {Err α : Type} :
    Thread Resp Err α → Bool
  | crashed => true
  | _ => false

/-- Between its first command and its end. -/
def Thread.inProgress {Cmd : Type} {Resp : Cmd → Type} {Err α : Type} :
    Thread Resp Err α → Bool
  | running (.call _ _) => true
  | _ => false

def Thread.command? {Cmd : Type} {Resp : Cmd → Type} {Err α : Type} :
    Thread Resp Err α → Option Cmd
  | running (.call c _) => some c
  | _ => none

theorem Thread.command?_eq_some {Cmd : Type} {Resp : Cmd → Type} {Err α : Type}
    {t : Thread Resp Err α} {c : Cmd} : t.command? = some c ↔ ∃ k, t = .running (.call c k) := by
  unfold Thread.command?
  split
  · simp only [Option.some.injEq, running.injEq, Prog.call.injEq]
    constructor
    · rintro rfl
      exact ⟨_, rfl, HEq.rfl⟩
    · rintro ⟨k, rfl, -⟩
      rfl
  · simp_all

theorem Thread.result?_eq_some {Cmd : Type} {Resp : Cmd → Type} {Err α : Type}
    {t : Thread Resp Err α} {a : α} : t.result? = some a ↔ t = .running (.ret a) := by
  unfold Thread.result?
  split <;> simp_all

structure Config {Cmd : Type} (Resp : Cmd → Type) (Err World α : Type) where
  world : World
  threads : Nat → Thread Resp Err α

inductive Act (Choice Env : Type) : Type
  | start (i : Nat)
  | step (i : Nat) (ch : Choice)
  | crash (i : Nat)
  | env (e : Env)

def Act.thread? {Choice Env : Type} : Act Choice Env → Option Nat
  | start i => some i
  | step i _ => some i
  | crash i => some i
  | env _ => none

/-- Which acts a family of runs admits, as a condition on the state before the
act and on the command about to be issued. -/
structure Policy (Cmd World Choice Env : Type) where
  step : Nat → Choice → World → Cmd → Bool
  crash : Nat → World → Cmd → Bool
  env : Env → World → Bool

def Policy.any {Cmd World Choice Env : Type} : Policy Cmd World Choice Env where
  step := fun _ _ _ _ => true
  crash := fun _ _ _ => true
  env := fun _ _ => true

variable {Cmd : Type} {Resp : Cmd → Type} {Err World Choice Env α : Type}

def Machine.step (M : Machine Resp Err World Choice Env)
    (cfg : Config Resp Err World α) : Act Choice Env → Option (Config Resp Err World α)
  | .start i =>
    match cfg.threads i with
    | .ready p => some ⟨cfg.world, setAt cfg.threads i (.running p)⟩
    | _ => none
  | .step i ch =>
    match cfg.threads i with
    | .running (.call c k) =>
      (M.exec i ch cfg.world c).map fun rw => ⟨rw.2, setAt cfg.threads i (.running (k rw.1))⟩
    | _ => none
  | .crash i =>
    match cfg.threads i with
    | .running (.call _ _) => some ⟨M.crash i cfg.world, setAt cfg.threads i .crashed⟩
    | _ => none
  | .env e => (M.env e cfg.world).map fun w => ⟨w, cfg.threads⟩

inductive Machine.Step (M : Machine Resp Err World Choice Env) (a : Config Resp Err World α) :
    Act Choice Env → Config Resp Err World α → Prop
  | start {i : Nat} {p : Prog Resp Err α} (ht : a.threads i = .ready p) :
      Step M a (.start i) ⟨a.world, setAt a.threads i (.running p)⟩
  | step {i : Nat} {ch : Choice} {c : Cmd} {k : Except Err (Resp c) → Prog Resp Err α}
      {r : Except Err (Resp c)} {w : World} (ht : a.threads i = .running (.call c k))
      (hexec : M.exec i ch a.world c = some (r, w)) :
      Step M a (.step i ch) ⟨w, setAt a.threads i (.running (k r))⟩
  | crash {i : Nat} {c : Cmd} {k : Except Err (Resp c) → Prog Resp Err α}
      (ht : a.threads i = .running (.call c k)) :
      Step M a (.crash i) ⟨M.crash i a.world, setAt a.threads i .crashed⟩
  | env {e : Env} {w : World} (henv : M.env e a.world = some w) :
      Step M a (.env e) ⟨w, a.threads⟩

theorem Machine.step_cases {M : Machine Resp Err World Choice Env}
    {a b : Config Resp Err World α} {act : Act Choice Env} (hstep : M.step a act = some b) :
    M.Step a act b := by
  unfold Machine.step at hstep
  split at hstep
  · split at hstep
    · rename_i ht
      cases hstep
      exact .start ht
    · cases hstep
  · split at hstep
    · rename_i ht
      obtain ⟨⟨r, w⟩, hexec, rfl⟩ := Option.map_eq_some_iff.mp hstep
      exact .step ht hexec
    · cases hstep
  · split at hstep
    · rename_i ht
      cases hstep
      exact .crash ht
    · cases hstep
  · obtain ⟨w, henv, rfl⟩ := Option.map_eq_some_iff.mp hstep
    exact .env henv

def Policy.admits (π : Policy Cmd World Choice Env) (cfg : Config Resp Err World α) :
    Act Choice Env → Bool
  | .start _ => true
  | .step i ch =>
    match cfg.threads i with
    | .running (.call c _) => π.step i ch cfg.world c
    | _ => false
  | .crash i =>
    match cfg.threads i with
    | .running (.call c _) => π.crash i cfg.world c
    | _ => false
  | .env e => π.env e cfg.world

/-- `Reach M π a b`: some run from `a` ends in `b`, all of its acts admitted. -/
inductive Reach (M : Machine Resp Err World Choice Env) (π : Policy Cmd World Choice Env)
    (a : Config Resp Err World α) : Config Resp Err World α → Prop
  | refl : Reach M π a a
  | tail {b c : Config Resp Err World α} (act : Act Choice Env) :
      Reach M π a b → π.admits b act = true → M.step b act = some c → Reach M π a c

/-- A run along a given schedule; `none` when an act is not admitted or blocks. -/
def Machine.run (M : Machine Resp Err World Choice Env) (π : Policy Cmd World Choice Env) :
    List (Act Choice Env) → Config Resp Err World α → Option (Config Resp Err World α)
  | [], cfg => some cfg
  | act :: acts, cfg =>
    if π.admits cfg act then (M.step cfg act).bind (M.run π acts) else none

theorem Reach.head {M : Machine Resp Err World Choice Env} {π : Policy Cmd World Choice Env}
    {a b c : Config Resp Err World α} (act : Act Choice Env) (hadm : π.admits a act = true)
    (hstep : M.step a act = some b) (hreach : Reach M π b c) : Reach M π a c := by
  induction hreach with
  | refl => exact .tail act .refl hadm hstep
  | tail next _ hadm' hstep' ih => exact .tail next ih hadm' hstep'

theorem reach_of_run {M : Machine Resp Err World Choice Env} {π : Policy Cmd World Choice Env}
    (acts : List (Act Choice Env)) {a b : Config Resp Err World α}
    (hrun : M.run π acts a = some b) : Reach M π a b := by
  induction acts generalizing a with
  | nil =>
      cases Option.some.inj hrun
      exact .refl
  | cons act acts ih =>
      unfold Machine.run at hrun
      split at hrun
      · rename_i hadm
        obtain ⟨next, hstep, hrest⟩ := Option.bind_eq_some_iff.mp hrun
        exact .head act hadm hstep (ih hrest)
      · contradiction

/-- A run whose last configuration satisfies a test, as one closed computation. -/
theorem exists_reach_of_run {M : Machine Resp Err World Choice Env}
    {π : Policy Cmd World Choice Env} (acts : List (Act Choice Env))
    (a : Config Resp Err World α) (test : Config Resp Err World α → Bool)
    (hrun : (M.run π acts a).any test = true) :
    ∃ b, Reach M π a b ∧ test b = true := by
  cases hlast : M.run π acts a with
  | none => simp [hlast] at hrun
  | some b => exact ⟨b, reach_of_run acts hlast, by simpa [hlast] using hrun⟩

theorem Machine.step_threads_ne {M : Machine Resp Err World Choice Env}
    {a b : Config Resp Err World α} {act : Act Choice Env} (hstep : M.step a act = some b) {i : Nat}
    (hi : act.thread? ≠ some i) : b.threads i = a.threads i := by
  cases step_cases hstep with
  | start ht => exact setAt_ne _ _ fun h => hi (congrArg some h.symm)
  | step ht hexec => exact setAt_ne _ _ fun h => hi (congrArg some h.symm)
  | crash ht => exact setAt_ne _ _ fun h => hi (congrArg some h.symm)
  | env henv => rfl

theorem Machine.run_threads_ne {M : Machine Resp Err World Choice Env}
    {π : Policy Cmd World Choice Env} {acts : List (Act Choice Env)}
    {a b : Config Resp Err World α} (hrun : M.run π acts a = some b) {i : Nat}
    (hi : ∀ act ∈ acts, act.thread? ≠ some i) : b.threads i = a.threads i := by
  induction acts generalizing a with
  | nil =>
      cases hrun
      rfl
  | cons act acts ih =>
      unfold Machine.run at hrun
      split at hrun
      · obtain ⟨next, hstep, hrest⟩ := Option.bind_eq_some_iff.mp hrun
        rw [ih hrest fun act' hact => hi act' (List.mem_cons_of_mem _ hact),
          step_threads_ne hstep (hi act List.mem_cons_self)]
      · cases hrun

/-- A run of the first `n` threads after which no thread is in progress. -/
theorem exists_rest_of_run {M : Machine Resp Err World Choice Env}
    {π : Policy Cmd World Choice Env} (acts : List (Act Choice Env)) (n : Nat)
    (a : Config Resp Err World α) (test : Config Resp Err World α → Bool)
    (hready : ∀ i, (a.threads i).inProgress = false)
    (hacts : acts.all (fun act => act.thread?.all fun i => i < n) = true)
    (hrun : (M.run π acts a).any (fun b =>
      test b && (List.range n).all fun i => !(b.threads i).inProgress) = true) :
    ∃ b, Reach M π a b ∧ (∀ i, (b.threads i).inProgress = false) ∧ test b = true := by
  obtain ⟨b, hlast, hb⟩ := (Option.any_eq_true _ _).mp hrun
  obtain ⟨htest, hrest⟩ := Bool.and_eq_true_iff.mp hb
  refine ⟨b, reach_of_run acts hlast, fun i => ?_, htest⟩
  by_cases hi : i < n
  · simpa using List.all_eq_true.mp hrest i (List.mem_range.mpr hi)
  · rw [Machine.run_threads_ne hlast fun act hact hthread => hi ?_]
    · exact hready i
    · simpa [hthread] using List.all_eq_true.mp hacts act hact

theorem Reach.ready {M : Machine Resp Err World Choice Env} {π : Policy Cmd World Choice Env}
    {a b : Config Resp Err World α} (hreach : Reach M π a b) {i : Nat} {p : Prog Resp Err α}
    (hready : b.threads i = .ready p) : a.threads i = .ready p := by
  induction hreach with
  | refl => exact hready
  | @tail b c act _ _ hstep ih =>
      apply ih
      have hother : ∀ {j t}, (∀ q, t ≠ .ready q) → setAt b.threads j t i = .ready p →
          b.threads i = .ready p := by
        intro j t ht hset
        by_cases hij : i = j
        · subst hij
          exact absurd (by simpa using hset) (ht p)
        · simpa [setAt_ne _ _ hij] using hset
      cases Machine.step_cases hstep with
      | start ht => exact hother (by simp) hready
      | step ht hexec => exact hother (by simp) hready
      | crash ht => exact hother (by simp) hready
      | env henv => exact hready

end EventAnalytics.Library
