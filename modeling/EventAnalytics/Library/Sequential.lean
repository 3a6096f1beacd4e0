import EventAnalytics.Library.RelyGuarantee

/-! A program run by one thread that nothing interferes with. -/
namespace EventAnalytics.Library

variable {Cmd : Type} {Resp : Cmd → Type} {Err World Choice Env α β : Type}

/-- `Solo M π i w p r w'`: thread `i` alone runs `p` from `w`, every outcome
admitted by `π`, and ends with `r` in `w'`. -/
inductive Solo (M : Machine Resp Err World Choice Env) (π : Policy Cmd World Choice Env)
    (i : Nat) : World → Prog Resp Err α → Except Err α → World → Prop
  | ret {w : World} {a : α} : Solo M π i w (.ret a) (.ok a) w
  | raise {w : World} {e : Err} : Solo M π i w (.raise e) (.error e) w
  | call {w w' w'' : World} {c : Cmd} {k : Except Err (Resp c) → Prog Resp Err α}
      {r : Except Err (Resp c)} {res : Except Err α} (ch : Choice)
      (hadm : π.step i ch w c = true) (hexec : M.exec i ch w c = some (r, w'))
      (hrest : Solo M π i w' (k r) res w'') : Solo M π i w (.call c k) res w''

def Machine.solo (M : Machine Resp Err World Choice Env) (π : Policy Cmd World Choice Env)
    (i : Nat) : List Choice → World → Prog Resp Err α → Option (Except Err α × World)
  | _, w, .ret a => some (.ok a, w)
  | _, w, .raise e => some (.error e, w)
  | [], _, .call _ _ => none
  | ch :: chs, w, .call c k =>
    if π.step i ch w c then (M.exec i ch w c).bind fun rw => M.solo π i chs rw.2 (k rw.1)
    else none

theorem solo_of_run {M : Machine Resp Err World Choice Env} {π : Policy Cmd World Choice Env}
    {i : Nat} (chs : List Choice) {w : World} {p : Prog Resp Err α} {r : Except Err α × World}
    (hrun : M.solo π i chs w p = some r) : Solo M π i w p r.1 r.2 := by
  induction p generalizing chs w with
  | ret a =>
      simp only [Machine.solo, Option.some.injEq] at hrun
      subst hrun
      exact .ret
  | raise e =>
      simp only [Machine.solo, Option.some.injEq] at hrun
      subst hrun
      exact .raise
  | call c k ih =>
      cases chs with
      | nil => simp [Machine.solo] at hrun
      | cons ch chs =>
          unfold Machine.solo at hrun
          split at hrun
          · rename_i hadm
            obtain ⟨⟨a, w'⟩, hexec, hrest⟩ := Option.bind_eq_some_iff.mp hrun
            exact .call ch hadm hexec (ih a chs hrest)
          · contradiction

theorem exists_solo_of_run {M : Machine Resp Err World Choice Env}
    {π : Policy Cmd World Choice Env} {i : Nat} (chs : List Choice) (w : World)
    (p : Prog Resp Err α) (test : Except Err α → World → Bool)
    (hrun : (M.solo π i chs w p).any (fun r => test r.1 r.2) = true) :
    ∃ r w', Solo M π i w p r w' ∧ test r w' = true := by
  cases hlast : M.solo π i chs w p with
  | none => simp [hlast] at hrun
  | some r => exact ⟨r.1, r.2, solo_of_run chs hlast, by simpa [hlast] using hrun⟩

/-- No invariant, no duty and no interference: the sequential instance of the
logic. -/
def Discipline.alone (M : Machine Resp Err World Choice Env)
    (π : Policy Cmd World Choice Env) (i : Nat) : Discipline Resp Err World Choice Env where
  machine := M
  policy :=
    { step := fun j ch w c => decide (j = i) && π.step i ch w c
      crash := fun _ _ _ => false
      env := fun _ _ => false }
  inv := fun _ => True
  rely := fun j w w' => j = i → w = w'
  duty := fun _ _ _ => True
  rely_refl := fun _ _ _ => rfl
  rely_trans := fun _ _ _ _ hab hbc hj => (hab hj).trans (hbc hj)
  step_sound := by
    intro j ch w c r w' hadm _ _ _
    have hj : j = i := of_decide_eq_true (Bool.and_eq_true_iff.mp hadm).1
    exact ⟨trivial, fun k hk hki => absurd (hki.trans hj.symm) hk⟩
  crash_sound := fun _ _ _ hadm => by simp at hadm
  env_sound := fun _ _ _ hadm => by simp at hadm

theorem Solo.sound {M : Machine Resp Err World Choice Env} {π : Policy Cmd World Choice Env}
    {i : Nat} {w w' : World} {p : Prog Resp Err α} {r : Except Err α}
    {Q : Outcome Err α → World → Prop} (hrun : Solo M π i w p r w')
    (hp : (Discipline.alone M π i).wp i p Q w) : Q (.ofExcept r) w' := by
  induction hrun with
  | ret => exact hp
  | raise => exact hp
  | call ch hadm hexec _ ih =>
      obtain ⟨-, -, hstep⟩ := hp
      exact ih (hstep ch _ _ (by simp [Discipline.alone, hadm]) hexec _
        ⟨trivial, fun _ => rfl⟩)

/-- The rule for a single command when nothing interferes. -/
theorem Discipline.wp_alone {M : Machine Resp Err World Choice Env}
    {π : Policy Cmd World Choice Env} {i : Nat} {c : Cmd} {R : Resp c → World → Prop}
    {E : Err → World → Prop} {w : World}
    (hok : ∀ ch a w', π.step i ch w c = true → M.exec i ch w c = some (.ok a, w') → R a w')
    (herror : ∀ ch e w', π.step i ch w c = true → M.exec i ch w c = some (.error e, w') →
      E e w') : (Discipline.alone M π i).wp i (.perform c) (ends R E) w := by
  apply wp_perform trivial (fun hcrash => by simp [alone] at hcrash)
  intro ch r w' hadm hexec w'' hw''
  have heq : w' = w'' := hw''.2 rfl
  have hadm : π.step i ch w c = true := (Bool.and_eq_true_iff.mp hadm).2
  cases r with
  | ok a => exact heq ▸ hok ch a w' hadm hexec
  | error e => exact heq ▸ herror ch e w' hadm hexec

theorem Solo.relates {M : Machine Resp Err World Choice Env} {π : Policy Cmd World Choice Env}
    {i : Nat} {w w' : World} {p : Prog Resp Err α} {r : Except Err α} {R : World → World → Prop}
    (hrefl : ∀ w, R w w) (htrans : ∀ a b c, R a b → R b c → R a c)
    (hexec : ∀ ch w c r w', M.exec i ch w c = some (r, w') → R w w')
    (hrun : Solo M π i w p r w') : R w w' := by
  induction hrun with
  | ret => exact hrefl _
  | raise => exact hrefl _
  | call ch _ hcall _ ih => exact htrans _ _ _ (hexec ch _ _ _ _ hcall) ih

theorem Solo.bind {M : Machine Resp Err World Choice Env} {π : Policy Cmd World Choice Env}
    {i : Nat} {w w' w'' : World} {p : Prog Resp Err α} {f : α → Prog Resp Err β}
    {r : Except Err α} {a : α} {res : Except Err β} (hp : Solo M π i w p r w')
    (hr : r = .ok a) (hf : Solo M π i w' (f a) res w'') : Solo M π i w (p >>= f) res w'' := by
  induction hp with
  | ret =>
      cases hr
      exact hf
  | raise => cases hr
  | call ch hadm hexec _ ih => exact .call ch hadm hexec (ih hr hf)

theorem Solo.perform {M : Machine Resp Err World Choice Env} {π : Policy Cmd World Choice Env}
    {i : Nat} {w w' : World} {c : Cmd} {a : Resp c} (ch : Choice) (hadm : π.step i ch w c = true)
    (hexec : M.exec i ch w c = some (.ok a, w')) : Solo M π i w (.perform c) (.ok a) w' :=
  .call ch hadm hexec .ret

theorem Solo.tryExcept {M : Machine Resp Err World Choice Env}
    {π : Policy Cmd World Choice Env} {i : Nat} {w w' : World} {p : Prog Resp Err α}
    {h : Err → Prog Resp Err α} {r : Except Err α} {a : α} (hp : Solo M π i w p r w')
    (hr : r = .ok a) : Solo M π i w (p.tryExcept h) (.ok a) w' := by
  induction hp with
  | ret =>
      cases hr
      exact .ret
  | raise => cases hr
  | call ch hadm hexec _ ih => exact .call ch hadm hexec (ih hr)

theorem Solo.bind_inv {M : Machine Resp Err World Choice Env} {π : Policy Cmd World Choice Env}
    {i : Nat} {w w' : World} {p : Prog Resp Err α} {f : α → Prog Resp Err β} {b : β}
    (h : Solo M π i w (p >>= f) (.ok b) w') :
    ∃ a w₁, Solo M π i w p (.ok a) w₁ ∧ Solo M π i w₁ (f a) (.ok b) w' := by
  induction p generalizing w with
  | ret a => exact ⟨a, w, .ret, h⟩
  | raise e => cases h
  | call c k ih =>
      cases h with
      | call ch hadm hexec hrest =>
          obtain ⟨a, w₁, hp, hf⟩ := ih _ hrest
          exact ⟨a, w₁, .call ch hadm hexec hp, hf⟩

theorem Solo.tryExcept_inv {M : Machine Resp Err World Choice Env}
    {π : Policy Cmd World Choice Env} {i : Nat} {w w' : World} {p : Prog Resp Err α}
    {h : Err → Prog Resp Err α} {a : α} (hrun : Solo M π i w (p.tryExcept h) (.ok a) w') :
    Solo M π i w p (.ok a) w' ∨
      ∃ e w₁, Solo M π i w p (.error e) w₁ ∧ Solo M π i w₁ (h e) (.ok a) w' := by
  induction p generalizing w with
  | ret b => exact .inl hrun
  | raise e => exact .inr ⟨e, w, .raise, hrun⟩
  | call c k ih =>
      cases hrun with
      | call ch hadm hexec hrest =>
          rcases ih _ hrest with hp | ⟨e, w₁, hp, hh⟩
          · exact .inl (.call ch hadm hexec hp)
          · exact .inr ⟨e, w₁, .call ch hadm hexec hp, hh⟩

end EventAnalytics.Library
