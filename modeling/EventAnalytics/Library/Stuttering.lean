import EventAnalytics.Library.Between
import EventAnalytics.Library.Progress

/-! Refinement of a machine by one that has more commands. Of these the refined machine
sees nothing: it stands still while they are executed. -/
namespace EventAnalytics.Library

variable {Cmd Extra : Type} {Resp : Cmd → Type} {RespX : Extra → Type}
  {Err World World' Choice Env α β : Type}

abbrev Both (Resp : Cmd → Type) (RespX : Extra → Type) : Cmd ⊕ Extra → Type
  | .inl c => Resp c
  | .inr x => RespX x

/-- The program over more commands, of which it knows nothing. -/
def Prog.lift (RespX : Extra → Type) (p : Prog Resp Err α) : Prog (Both Resp RespX) Err α :=
  p.embed .inl fun _ r => r

/-- Answered by `A`, the first program does what the second one does, and between its
commands what the second one knows nothing of. -/
inductive Prog.Covers (A : (x : Extra) → Except Err (RespX x) → Prop) (f : α → β) :
    Prog (Both Resp RespX) Err β → Prog Resp Err α → Prop
  | ret (a : α) : Covers A f (.ret (f a)) (.ret a)
  | raise (e : Err) : Covers A f (.raise e) (.raise e)
  | call {c : Cmd} {k' : Except Err (Resp c) → Prog (Both Resp RespX) Err β}
      {k : Except Err (Resp c) → Prog Resp Err α} (h : ∀ r, Covers A f (k' r) (k r)) :
      Covers A f (.call (.inl c) k') (.call c k)
  | extra {x : Extra} {k' : Except Err (RespX x) → Prog (Both Resp RespX) Err β}
      {p : Prog Resp Err α} (h : ∀ r, A x r → Covers A f (k' r) p) :
      Covers A f (.call (.inr x) k') p

/-- It issues nothing but the other commands, and returns nothing that `f` returns. -/
def Prog.Aside (f : α → β) : Prog (Both Resp RespX) Err β → Prop :=
  Prog.Relays (fun _ _ => True) (fun c => c.isRight = true) fun b => ∀ a, b ≠ f a

/-- A thread and its part in the refined machine; one that stands aside has none, and
the thread in its place never begins. -/
inductive Thread.Covers (A : (x : Extra) → Except Err (RespX x) → Prop) (f : α → β) :
    Thread (Both Resp RespX) Err β → Thread Resp Err α → Prop
  | ready {p' : Prog (Both Resp RespX) Err β} {p : Prog Resp Err α} (h : p'.Covers A f p) :
      Covers A f (.ready p') (.ready p)
  | running {p' : Prog (Both Resp RespX) Err β} {p : Prog Resp Err α} (h : p'.Covers A f p) :
      Covers A f (.running p') (.running p)
  | crashed : Covers A f .crashed .crashed
  | aside {t : Thread (Both Resp RespX) Err β} {p : Prog Resp Err α}
      (h : t.All (Prog.Aside f)) : Covers A f t (.ready p)

section Covers

variable {A : (x : Extra) → Except Err (RespX x) → Prop} {f : α → β}

theorem Prog.covers_lift (p : Prog Resp Err α) :
    (f <$> p.lift RespX).Covers A f p := by
  induction p with
  | ret a => exact .ret a
  | raise e => exact .raise e
  | call c k ih => exact .call ih

theorem Thread.Covers.result? (hf : Function.Injective f) {t : Thread (Both Resp RespX) Err β}
    {u : Thread Resp Err α} (h : t.Covers A f u) {a : α} (ht : t.result? = some (f a)) :
    u.result? = some a := by
  have hret := Thread.result?_eq_some.mp ht
  cases h with
  | ready h => cases hret
  | crashed => cases hret
  | running h =>
      generalize hp : f a = b at hret
      cases hret
      cases h with
      | ret a' => rw [hf hp]; rfl
  | aside h =>
      rw [hret] at h
      exact absurd rfl (h a)

end Covers

/-- `M` under `π` does to its worlds what `M₀` under `π₀` does to theirs, and besides
executes commands that `M₀` sees nothing of. A thread does not crash in these. -/
structure Surrounds (M : Machine (Both Resp RespX) Err World' Choice Env)
    (π : Policy (Cmd ⊕ Extra) World' Choice Env) (M₀ : Machine Resp Err World Choice Env)
    (π₀ : Policy Cmd World Choice Env) (A : (x : Extra) → Except Err (RespX x) → Prop)
    (rel : World' → World → Prop) : Prop where
  exec : ∀ {i ch b v c r b'}, rel b v → π.step i ch b (.inl c) = true →
    M.exec i ch b (.inl c) = some (r, b') →
    ∃ v', π₀.step i ch v c = true ∧ M₀.exec i ch v c = some (r, v') ∧ rel b' v'
  extra : ∀ {i ch b v x r b'}, rel b v → π.step i ch b (.inr x) = true →
    M.exec i ch b (.inr x) = some (r, b') → A x r ∧ rel b' v
  crash : ∀ {i b v c}, rel b v → π.crash i b (.inl c) = true →
    π₀.crash i v c = true ∧ rel (M.crash i b) (M₀.crash i v)
  crash_extra : ∀ {i b x}, π.crash i b (.inr x) = false
  env : ∀ {e b v b'}, rel b v → π.env e b = true → M.env e b = some b' →
    ∃ v', π₀.env e v = true ∧ M₀.env e v = some v' ∧ rel b' v'

structure Covered (A : (x : Extra) → Except Err (RespX x) → Prop) (f : α → β)
    (rel : World' → World → Prop) (cfg : Config (Both Resp RespX) Err World' β)
    (cfg₀ : Config Resp Err World α) : Prop where
  worlds : rel cfg.world cfg₀.world
  threads : ∀ i, (cfg.threads i).Covers A f (cfg₀.threads i)

section Surrounds

variable {A : (x : Extra) → Except Err (RespX x) → Prop} {f : α → β}
  {rel : World' → World → Prop} {M : Machine (Both Resp RespX) Err World' Choice Env}
  {π : Policy (Cmd ⊕ Extra) World' Choice Env} {M₀ : Machine Resp Err World Choice Env}
  {π₀ : Policy Cmd World Choice Env}

theorem Covered.update {cfg : Config (Both Resp RespX) Err World' β}
    {cfg₀ : Config Resp Err World α} (h : Covered A f rel cfg cfg₀) {b : World'} {v : World}
    (hworlds : rel b v) (i : Nat) {t : Thread (Both Resp RespX) Err β} {u : Thread Resp Err α}
    (hthread : t.Covers A f u) :
    Covered A f rel ⟨b, setAt cfg.threads i t⟩ ⟨v, setAt cfg₀.threads i u⟩ := by
  refine ⟨hworlds, fun j => ?_⟩
  by_cases hj : j = i
  · subst hj
    simpa using hthread
  · simpa only [setAt_ne _ _ hj] using h.threads j

theorem Covered.stay {cfg : Config (Both Resp RespX) Err World' β}
    {cfg₀ : Config Resp Err World α} (h : Covered A f rel cfg cfg₀) {b : World'}
    (hworlds : rel b cfg₀.world) (i : Nat) {t : Thread (Both Resp RespX) Err β}
    (hthread : t.Covers A f (cfg₀.threads i)) :
    Covered A f rel ⟨b, setAt cfg.threads i t⟩ cfg₀ := by
  refine ⟨hworlds, fun j => ?_⟩
  by_cases hj : j = i
  · subst hj
    simpa using hthread
  · simpa only [setAt_ne _ _ hj] using h.threads j

theorem Surrounds.step (hs : Surrounds M π M₀ π₀ A rel)
    {cfg next : Config (Both Resp RespX) Err World' β} {cfg₀ : Config Resp Err World α}
    (h : Covered A f rel cfg cfg₀) {act : Act Choice Env} (hadm : π.admits cfg act = true)
    (hstep : M.step cfg act = some next) :
    ∃ next₀, Reach M₀ π₀ cfg₀ next₀ ∧ Covered A f rel next next₀ := by
  cases Machine.step_cases hstep with
  | @start i p ht =>
      have hthread := h.threads i
      rw [ht] at hthread
      generalize hu : cfg₀.threads i = u at hthread
      cases hthread with
      | ready hp =>
          exact ⟨_, .tail (.start i) .refl rfl (by simp only [Machine.step, hu]),
            h.update h.worlds i (.running hp)⟩
      | aside hp => exact ⟨cfg₀, .refl, h.stay h.worlds i (by rw [hu]; exact .aside hp)⟩
  | @step i ch c k r b ht hexec =>
      have hthread := h.threads i
      rw [ht] at hthread
      simp only [Policy.admits, ht] at hadm
      generalize hu : cfg₀.threads i = u at hthread
      cases hthread with
      | running hp =>
          cases hp with
          | call hk =>
              obtain ⟨v, hadm₀, hexec₀, hrel⟩ := hs.exec h.worlds hadm hexec
              refine ⟨_, .tail (.step i ch) .refl ?_ ?_, h.update hrel i (.running (hk r))⟩
              · simpa only [Policy.admits, hu] using hadm₀
              · simp only [Machine.step, hu, hexec₀, Option.map_some]
          | extra hk =>
              obtain ⟨hr, hrel⟩ := hs.extra h.worlds hadm hexec
              exact ⟨cfg₀, .refl, h.stay hrel i (by rw [hu]; exact .running (hk r hr))⟩
      | aside hp =>
          cases c with
          | inl c => cases hp.1
          | inr x =>
              obtain ⟨-, hrel⟩ := hs.extra h.worlds hadm hexec
              exact ⟨cfg₀, .refl, h.stay hrel i (by rw [hu]; exact .aside (hp.2 r trivial))⟩
  | @crash i c k ht =>
      have hthread := h.threads i
      rw [ht] at hthread
      simp only [Policy.admits, ht] at hadm
      cases c with
      | inr x =>
          rw [hs.crash_extra] at hadm
          cases hadm
      | inl c =>
          generalize hu : cfg₀.threads i = u at hthread
          cases hthread with
          | running hp =>
              cases hp with
              | call hk =>
                  obtain ⟨hadm₀, hrel⟩ := hs.crash h.worlds hadm
                  refine ⟨_, .tail (.crash i) .refl ?_ ?_, h.update hrel i .crashed⟩
                  · simpa only [Policy.admits, hu] using hadm₀
                  · simp only [Machine.step, hu]
          | aside hp => cases hp.1
  | @env e b henv =>
      obtain ⟨v, hadm₀, henv₀, hrel⟩ := hs.env h.worlds hadm henv
      exact ⟨⟨v, cfg₀.threads⟩, .tail (.env e) .refl hadm₀
        (by simp only [Machine.step, henv₀, Option.map_some]), hrel, h.threads⟩

/-- What the refined machine sees of a run is a run of its own. -/
theorem Surrounds.reach (hs : Surrounds M π M₀ π₀ A rel)
    {cfg next : Config (Both Resp RespX) Err World' β} {cfg₀ : Config Resp Err World α}
    (h : Covered A f rel cfg cfg₀) (hreach : Reach M π cfg next) :
    ∃ next₀, Reach M₀ π₀ cfg₀ next₀ ∧ Covered A f rel next next₀ := by
  induction hreach with
  | refl => exact ⟨cfg₀, .refl, h⟩
  | tail act _ hadm hstep ih =>
      obtain ⟨mid, hmid, hcovered⟩ := ih
      obtain ⟨next₀, hnext, hcovered'⟩ := hs.step hcovered hadm hstep
      exact ⟨next₀, hmid.trans hnext, hcovered'⟩

end Surrounds

end EventAnalytics.Library
