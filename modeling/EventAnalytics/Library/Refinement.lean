import EventAnalytics.Library.Relays

/-! Refinement of a machine by another one over the same commands. The machines may answer
a command differently where no program can tell, and their worlds are related by a
simulation that every command, crash and act of the environment keeps. -/
namespace EventAnalytics.Library

variable {Cmd : Type} {Resp : Cmd → Type} {Err World World' Choice Choice' Env α β γ δ : Type}

/-- The same exception, or answers that are alike. -/
def SameAnswer (E : (c : Cmd) → Resp c → Resp c → Prop) (c : Cmd) :
    Except Err (Resp c) → Except Err (Resp c) → Prop
  | .ok a, .ok b => E c a b
  | .error e, .error e' => e = e'
  | _, _ => False

/-- Programs that issue the same commands and, answered alike, end alike. -/
inductive Prog.Alike (E : (c : Cmd) → Resp c → Resp c → Prop) (R : α → β → Prop) :
    Prog Resp Err α → Prog Resp Err β → Prop
  | ret {a : α} {b : β} (h : R a b) : Alike E R (.ret a) (.ret b)
  | raise (e : Err) : Alike E R (.raise e) (.raise e)
  | call {c : Cmd} {k : Except Err (Resp c) → Prog Resp Err α}
      {k' : Except Err (Resp c) → Prog Resp Err β}
      (h : ∀ r r', SameAnswer E c r r' → Alike E R (k r) (k' r')) :
      Alike E R (.call c k) (.call c k')

namespace Prog

variable {E : (c : Cmd) → Resp c → Resp c → Prop} {R : α → β → Prop} {S : γ → δ → Prop}

theorem alike_perform (c : Cmd) :
    (perform c : Prog Resp Err (Resp c)).Alike E (E c) (perform c) := by
  refine .call fun r r' h => ?_
  cases r <;> cases r' <;> simp only [SameAnswer] at h
  · subst h
    exact .raise _
  · exact .ret h

theorem Alike.bind {p : Prog Resp Err α} {q : Prog Resp Err β} {f : α → Prog Resp Err γ}
    {g : β → Prog Resp Err δ} (hp : p.Alike E R q)
    (hf : ∀ a b, R a b → (f a).Alike E S (g b)) : (p >>= f).Alike E S (q >>= g) := by
  induction hp with
  | ret h => exact hf _ _ h
  | raise e => exact .raise e
  | call _ ih => exact .call ih

theorem Alike.tryExcept {p : Prog Resp Err α} {q : Prog Resp Err β}
    {h : Err → Prog Resp Err α} {h' : Err → Prog Resp Err β} (hp : p.Alike E R q)
    (hh : ∀ e, (h e).Alike E R (h' e)) : (p.tryExcept h).Alike E R (q.tryExcept h') := by
  induction hp with
  | ret h => exact .ret h
  | raise e => exact hh e
  | call _ ih => exact .call ih

/-- A program that only issues commands whose answers can be told apart is its own double. -/
theorem Relays.alike {A : (c : Cmd) → Except Err (Resp c) → Prop} {N : Cmd → Prop}
    {P : α → Prop} {p : Prog Resp Err α} (hp : p.Relays A N P)
    (hE : ∀ c, N c → ∀ r r', SameAnswer E c r r' → r = r' ∧ A c r) : p.Alike E Eq p := by
  induction p with
  | ret a => exact .ret rfl
  | raise e => exact .raise e
  | call c k ih =>
      refine .call fun r r' h => ?_
      obtain ⟨rfl, hA⟩ := hE c hp.1 r r' h
      exact ih r (hp.2 r hA)

end Prog

inductive Thread.Alike (E : (c : Cmd) → Resp c → Resp c → Prop) (R : α → β → Prop) :
    Thread Resp Err α → Thread Resp Err β → Prop
  | ready {p : Prog Resp Err α} {q : Prog Resp Err β} (h : p.Alike E R q) :
      Alike E R (.ready p) (.ready q)
  | running {p : Prog Resp Err α} {q : Prog Resp Err β} (h : p.Alike E R q) :
      Alike E R (.running p) (.running q)
  | crashed : Alike E R .crashed .crashed

section Thread

variable {E : (c : Cmd) → Resp c → Resp c → Prop} {R : α → β → Prop} {u : Thread Resp Err β}

theorem Thread.Alike.of_ready {p : Prog Resp Err α}
    (h : (Thread.ready p).Alike E R u) : ∃ q, u = .ready q ∧ p.Alike E R q := by
  cases h with
  | ready h => exact ⟨_, rfl, h⟩

theorem Thread.Alike.of_call {c : Cmd} {k : Except Err (Resp c) → Prog Resp Err α}
    (h : (Thread.running (.call c k)).Alike E R u) :
    ∃ k', u = .running (.call c k') ∧
      ∀ r r', SameAnswer E c r r' → (k r).Alike E R (k' r') := by
  cases h with
  | running h =>
      cases h with
      | call hk => exact ⟨_, rfl, hk⟩

end Thread

theorem Thread.Alike.result? {E : (c : Cmd) → Resp c → Resp c → Prop}
    {t u : Thread Resp Err α} (h : t.Alike E Eq u) : t.result? = u.result? := by
  cases h with
  | ready _ => rfl
  | crashed => rfl
  | running h =>
      cases h with
      | ret h => exact congrArg some h
      | raise e => rfl
      | call _ => rfl

/-- `M` under `π` refines `M'` under `π'`: its worlds are simulated by `rel`. -/
structure Refines (M : Machine Resp Err World Choice Env) (π : Policy Cmd World Choice Env)
    (M' : Machine Resp Err World' Choice' Env) (π' : Policy Cmd World' Choice' Env)
    (E : (c : Cmd) → Resp c → Resp c → Prop) (rel : World → World' → Prop) : Prop where
  exec : ∀ {i ch w v c r w'}, rel w v → π.step i ch w c = true →
    M.exec i ch w c = some (r, w') → ∃ ch' r' v', π'.step i ch' v c = true ∧
      M'.exec i ch' v c = some (r', v') ∧ SameAnswer E c r r' ∧ rel w' v'
  crash : ∀ {i w v c}, rel w v → π.crash i w c = true →
    π'.crash i v c = true ∧ rel (M.crash i w) (M'.crash i v)
  env : ∀ {e w v w'}, rel w v → π.env e w = true → M.env e w = some w' →
    ∃ v', π'.env e v = true ∧ M'.env e v = some v' ∧ rel w' v'

structure Simulated (E : (c : Cmd) → Resp c → Resp c → Prop) (rel : World → World' → Prop)
    (cfg : Config Resp Err World α) (cfg' : Config Resp Err World' α) : Prop where
  worlds : rel cfg.world cfg'.world
  threads : ∀ i, (cfg.threads i).Alike E Eq (cfg'.threads i)

section Refines

variable {M : Machine Resp Err World Choice Env} {π : Policy Cmd World Choice Env}
  {M' : Machine Resp Err World' Choice' Env} {π' : Policy Cmd World' Choice' Env}
  {E : (c : Cmd) → Resp c → Resp c → Prop} {rel : World → World' → Prop}

theorem Simulated.update {cfg : Config Resp Err World α} {cfg' : Config Resp Err World' α}
    (h : Simulated E rel cfg cfg') {w : World} {v : World'} (hworlds : rel w v) (i : Nat)
    {t u : Thread Resp Err α} (hthread : t.Alike E Eq u) :
    Simulated E rel ⟨w, setAt cfg.threads i t⟩ ⟨v, setAt cfg'.threads i u⟩ := by
  refine ⟨hworlds, fun j => ?_⟩
  by_cases hj : j = i
  · subst hj
    simpa using hthread
  · simpa only [setAt_ne _ _ hj] using h.threads j

theorem Refines.step (href : Refines M π M' π' E rel) {cfg next : Config Resp Err World α}
    {cfg' : Config Resp Err World' α} (h : Simulated E rel cfg cfg') {act : Act Choice Env}
    (hadm : π.admits cfg act = true) (hstep : M.step cfg act = some next) :
    ∃ act' next', π'.admits cfg' act' = true ∧ M'.step cfg' act' = some next' ∧
      Simulated E rel next next' := by
  cases Machine.step_cases hstep with
  | @start i p ht =>
      have hthread := h.threads i
      rw [ht] at hthread
      obtain ⟨q, hu, hpq⟩ := hthread.of_ready
      exact ⟨.start i, _, rfl, by simp only [Machine.step, hu],
        h.update h.worlds i (.running hpq)⟩
  | @step i ch c k r w ht hexec =>
      have hthread := h.threads i
      rw [ht] at hthread
      obtain ⟨k', hu, hk⟩ := hthread.of_call
      simp only [Policy.admits, ht] at hadm
      obtain ⟨ch', r', v, hadm', hexec', hsame, hrel⟩ := href.exec h.worlds hadm hexec
      exact ⟨.step i ch', _, by simpa only [Policy.admits, hu] using hadm',
        by simp only [Machine.step, hu, hexec', Option.map_some],
        h.update hrel i (.running (hk _ _ hsame))⟩
  | @crash i c k ht =>
      have hthread := h.threads i
      rw [ht] at hthread
      obtain ⟨k', hu, -⟩ := hthread.of_call
      simp only [Policy.admits, ht] at hadm
      obtain ⟨hadm', hrel⟩ := href.crash h.worlds hadm
      exact ⟨.crash i, _, by simpa only [Policy.admits, hu] using hadm',
        by simp only [Machine.step, hu], h.update hrel i .crashed⟩
  | @env e w henv =>
      obtain ⟨v, hadm', henv', hrel⟩ := href.env h.worlds hadm henv
      exact ⟨.env e, ⟨v, cfg'.threads⟩, hadm', by simp only [Machine.step, henv', Option.map_some],
        hrel, h.threads⟩

theorem Refines.reach (href : Refines M π M' π' E rel) {cfg next : Config Resp Err World α}
    {cfg' : Config Resp Err World' α} (h : Simulated E rel cfg cfg')
    (hreach : Reach M π cfg next) :
    ∃ next', Reach M' π' cfg' next' ∧ Simulated E rel next next' := by
  induction hreach with
  | refl => exact ⟨cfg', .refl, h⟩
  | tail act _ hadm hstep ih =>
      obtain ⟨mid, hmid, hsim⟩ := ih
      obtain ⟨act', next', hadm', hstep', hnext⟩ := href.step hsim hadm hstep
      exact ⟨next', .tail act' hmid hadm' hstep', hnext⟩

end Refines

end EventAnalytics.Library
