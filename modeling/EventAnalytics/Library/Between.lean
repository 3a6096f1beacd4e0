import EventAnalytics.Library.RelyGuarantee
import Mathlib.Logic.Basic

/-! What a run passes through between two of its configurations. A thread that is verified
alone may assume that each of its commands is issued in a configuration on the way. -/
namespace EventAnalytics.Library

variable {Cmd : Type} {Resp : Cmd → Type} {Err World Choice Env α : Type}

theorem Reach.trans {M : Machine Resp Err World Choice Env} {π : Policy Cmd World Choice Env}
    {a b c : Config Resp Err World α} (hab : Reach M π a b) (hbc : Reach M π b c) :
    Reach M π a c := by
  induction hbc with
  | refl => exact hab
  | tail act _ hadm hstep ih => exact .tail act ih hadm hstep

theorem Reach.related {M : Machine Resp Err World Choice Env} {π : Policy Cmd World Choice Env}
    {R : World → World → Prop} (hrefl : ∀ w, R w w) (htrans : ∀ a b c, R a b → R b c → R a c)
    (hexec : ∀ i ch w c r w', M.exec i ch w c = some (r, w') → R w w')
    (hcrash : ∀ i w, R w (M.crash i w)) (henv : ∀ e w w', M.env e w = some w' → R w w')
    {a b : Config Resp Err World α} (hreach : Reach M π a b) : R a.world b.world := by
  induction hreach with
  | refl => exact hrefl _
  | tail act _ _ hstep ih =>
      apply htrans _ _ _ ih
      cases Machine.step_cases hstep with
      | start ht => exact hrefl _
      | step ht hw => exact hexec _ _ _ _ _ _ hw
      | crash ht => exact hcrash _ _
      | env hw => exact henv _ _ _ hw

/-- Some run from `a` to `b` passes through `mid`. -/
structure Passes (M : Machine Resp Err World Choice Env) (π : Policy Cmd World Choice Env)
    (a b mid : Config Resp Err World α) : Prop where
  before : Reach M π a mid
  after : Reach M π mid b

/-- On the way from `a` to `b`, thread `i` issues `c` in a world that satisfies `P`. -/
def Meets (M : Machine Resp Err World Choice Env) (π : Policy Cmd World Choice Env)
    (a b : Config Resp Err World α) (i : Nat) (c : Cmd) (P : World → Prop) : Prop :=
  ∃ mid, Passes M π a b mid ∧ (mid.threads i).command? = some c ∧ P mid.world

theorem Meets.mono {M : Machine Resp Err World Choice Env} {π : Policy Cmd World Choice Env}
    {a b : Config Resp Err World α} {i : Nat} {c : Cmd} {P Q : World → Prop}
    (h : Meets M π a b i c P) (hPQ : ∀ w, P w → Q w) : Meets M π a b i c Q := by
  obtain ⟨mid, hpasses, hcommand, hP⟩ := h
  exact ⟨mid, hpasses, hcommand, hPQ _ hP⟩

open Classical in
/-- The steps of the runs from `a` to `b`. -/
noncomputable def Policy.between (π : Policy Cmd World Choice Env)
    (M : Machine Resp Err World Choice Env) (a b : Config Resp Err World α) :
    Policy Cmd World Choice Env where
  step i ch w c := π.step i ch w c && decide (Meets M π a b i c fun w' => w' = w)
  crash := π.crash
  env := π.env

theorem Policy.between_step {π : Policy Cmd World Choice Env}
    {M : Machine Resp Err World Choice Env} {a b : Config Resp Err World α} {i : Nat}
    {ch : Choice} {w : World} {c : Cmd} (hadm : (π.between M a b).step i ch w c = true) :
    π.step i ch w c = true ∧ Meets M π a b i c fun w' => w' = w := by
  obtain ⟨hstep, hmeets⟩ := Bool.and_eq_true_iff.mp hadm
  classical
  exact ⟨hstep, of_decide_eq_true hmeets⟩

theorem Policy.admits_between {π : Policy Cmd World Choice Env}
    {M : Machine Resp Err World Choice Env} {a b c : Config Resp Err World α}
    {act : Act Choice Env} (hadm : π.admits c act = true) (hpasses : Passes M π a b c) :
    (π.between M a b).admits c act = true := by
  classical
  cases act with
  | start i => rfl
  | crash i => exact hadm
  | env e => exact hadm
  | step i ch =>
      cases ht : c.threads i with
      | ready p => simp [admits, ht] at hadm
      | crashed => simp [admits, ht] at hadm
      | running p =>
          cases p with
          | ret x => simp [admits, ht] at hadm
          | raise e => simp [admits, ht] at hadm
          | call cmd k =>
              have hmeets : Meets M π a b i cmd fun w => w = c.world :=
                ⟨c, hpasses, Thread.command?_eq_some.mpr ⟨k, ht⟩, rfl⟩
              simp only [admits, ht] at hadm ⊢
              exact Bool.and_eq_true_iff.mpr ⟨hadm, decide_eq_true hmeets⟩

/-- Every run is one of the runs between its ends. -/
theorem Reach.between {M : Machine Resp Err World Choice Env} {π : Policy Cmd World Choice Env}
    {a b : Config Resp Err World α} (hreach : Reach M π a b) :
    Reach M (π.between M a b) a b := by
  have hway : ∀ c, Reach M π a c → Reach M π c b → Reach M (π.between M a b) a c := by
    intro c hbefore
    induction hbefore with
    | refl => exact fun _ => .refl
    | tail act hmid hadm hstep ih =>
        intro hafter
        have hrest := Reach.head act hadm hstep hafter
        exact .tail act (ih hrest) (Policy.admits_between hadm ⟨hmid, hrest⟩) hstep
  exact hway b hreach .refl

/-- Where every command may be issued, nothing is to be shown of a program. -/
theorem Discipline.wp_free {D : Discipline Resp Err World Choice Env} {i : Nat}
    (hduty : ∀ w c, D.duty i w c) (p : Prog Resp Err α) (w : World) :
    D.wp i p (fun _ _ => True) w := by
  induction p generalizing w with
  | ret a => trivial
  | raise e => trivial
  | call c k ih => exact ⟨hduty w c, fun _ _ _ => trivial, fun _ r _ _ _ w'' _ => ih r w''⟩

theorem Discipline.threadOk_free {D : Discipline Resp Err World Choice Env} {i : Nat}
    (hduty : ∀ w c, D.duty i w c) (w : World) (t : Thread Resp Err α) :
    D.ThreadOk i (fun _ _ => True) w t := by
  cases t with
  | ready p => exact fun w' _ => wp_free hduty p w'
  | running p => exact fun w' _ => wp_free hduty p w'
  | crashed => exact fun _ _ => trivial

theorem Discipline.Keeps.due {D : Discipline Resp Err World Choice Env} {i : Nat}
    {Q : Nat → Outcome Err α → World → Prop} {R : Outcome Err α → World → Prop}
    {cfg : Config Resp Err World α} (hkeeps : D.Keeps Q cfg) {p : Prog Resp Err α}
    (hready : cfg.threads i = .ready p) (hp : ∀ w, D.Later i cfg.world w → D.wp i p R w) :
    D.Keeps (setAt Q i R) cfg := by
  refine ⟨hkeeps.inv, fun j => ?_⟩
  by_cases hj : j = i
  · subst hj
    rw [setAt_self, hready]
    exact hp
  · rw [setAt_ne _ _ hj]
    exact hkeeps.threads j

/-- The steps that keep to a condition on the command that is issued. -/
def Policy.guarded (π : Policy Cmd World Choice Env) (g : World → Cmd → Bool) :
    Policy Cmd World Choice Env where
  step i ch w c := π.step i ch w c && g w c
  crash := π.crash
  env := π.env

theorem Discipline.Keeps.guarded {D : Discipline Resp Err World Choice Env}
    {g : World → Cmd → Bool} (hg : ∀ i w c, D.duty i w c → g w c = true)
    {Q : Nat → Outcome Err α → World → Prop} {a b : Config Resp Err World α}
    (hkeeps : D.Keeps Q a) (hreach : Reach D.machine D.policy a b) :
    Reach D.machine (D.policy.guarded g) a b := by
  induction hreach with
  | refl => exact .refl
  | tail act hbefore hadm hstep ih =>
      refine .tail act ih ?_ hstep
      cases Machine.step_cases hstep with
      | start ht => rfl
      | step ht hexec =>
          simp only [Policy.admits, ht] at hadm ⊢
          exact Bool.and_eq_true_iff.mpr ⟨hadm, hg _ _ _ ((hkeeps.reach hbefore).duty ht)⟩
      | crash ht => exact hadm
      | env henv => exact hadm

/-- What relates the two sides of every step that keeps to the duties relates those of
every run. -/
theorem Discipline.Keeps.related {D : Discipline Resp Err World Choice Env}
    {R : World → World → Prop} (hrefl : ∀ w, R w w) (htrans : ∀ a b c, R a b → R b c → R a c)
    (hexec : ∀ i ch w c r w', D.inv w → D.duty i w c →
      D.machine.exec i ch w c = some (r, w') → R w w')
    (hcrash : ∀ i w, D.inv w → R w (D.machine.crash i w))
    (henv : ∀ e w w', D.inv w → D.machine.env e w = some w' → R w w')
    {Q : Nat → Outcome Err α → World → Prop} {a b : Config Resp Err World α}
    (hkeeps : D.Keeps Q a) (hreach : Reach D.machine D.policy a b) : R a.world b.world := by
  induction hreach with
  | refl => exact hrefl _
  | tail act hbefore _ hstep ih =>
      have hkept := hkeeps.reach hbefore
      apply htrans _ _ _ ih
      cases Machine.step_cases hstep with
      | start ht => exact hrefl _
      | step ht hw => exact hexec _ _ _ _ _ _ hkept.inv (hkept.duty ht) hw
      | crash ht => exact hcrash _ _ hkept.inv
      | env hw => exact henv _ _ _ hkept.inv hw

end EventAnalytics.Library
