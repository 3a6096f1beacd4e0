import EventAnalytics.Library.Atomic
import EventAnalytics.Library.Sequential

/-! Which commands a program can issue, whatever they answer. What each of these
commands keeps, the program keeps. -/
namespace EventAnalytics.Library

variable {Cmd : Type} {Resp : Cmd → Type} {Err World Choice Env α β : Type}

namespace Prog

def Issues (N : Cmd → Prop) : Prog Resp Err α → Prop
  | ret _ => True
  | raise _ => True
  | call c k => N c ∧ ∀ r, (k r).Issues N

variable {N N' : Cmd → Prop}

theorem issues_ofExcept (r : Except Err α) : (ofExcept r : Prog Resp Err α).Issues N := by
  cases r <;> trivial

theorem issues_perform {c : Cmd} (hc : N c) : (perform c : Prog Resp Err (Resp c)).Issues N :=
  ⟨hc, issues_ofExcept⟩

theorem Issues.bind {p : Prog Resp Err α} {f : α → Prog Resp Err β} (hp : p.Issues N)
    (hf : ∀ a, (f a).Issues N) : (p >>= f).Issues N := by
  induction p with
  | ret a => exact hf a
  | raise e => trivial
  | call c k ih => exact ⟨hp.1, fun r => ih r (hp.2 r)⟩

theorem Issues.tryExcept {p : Prog Resp Err α} {h : Err → Prog Resp Err α} (hp : p.Issues N)
    (hh : ∀ e, (h e).Issues N) : (p.tryExcept h).Issues N := by
  induction p with
  | ret a => trivial
  | raise e => exact hh e
  | call c k ih => exact ⟨hp.1, fun r => ih r (hp.2 r)⟩

theorem Issues.mono {p : Prog Resp Err α} (hp : p.Issues N) (hN : ∀ c, N c → N' c) :
    p.Issues N' := by
  induction p with
  | ret a => trivial
  | raise e => trivial
  | call c k ih => exact ⟨hN c hp.1, fun r => ih r (hp.2 r)⟩

theorem issues_any (p : Prog Resp Err α) : p.Issues fun _ => True := by
  induction p with
  | ret a => trivial
  | raise e => trivial
  | call c k ih => exact ⟨trivial, ih⟩

theorem run_congr {f g : World → (c : Cmd) → Option (Except Err (Resp c) × World)}
    {p : Prog Resp Err α} (hp : p.Issues N) (hfg : ∀ c w, N c → f w c = g w c) (w : World) :
    p.run f w = p.run g w := by
  induction p generalizing w with
  | ret a => rfl
  | raise e => rfl
  | call c k ih =>
      simp only [run, hfg c w hp.1]
      exact congrArg _ (funext fun rw => ih rw.1 (hp.2 rw.1) rw.2)

theorem Issues.run {f : World → (c : Cmd) → Option (Except Err (Resp c) × World)}
    {I : World → Prop} {p : Prog Resp Err α} (hp : p.Issues N)
    (hstep : ∀ c w r w', N c → I w → f w c = some (r, w') → I w') {w w' : World}
    {r : Except Err α} (hrun : p.run f w = some (r, w')) (hI : I w) : I w' := by
  induction p generalizing w with
  | ret a =>
      cases hrun
      exact hI
  | raise e =>
      cases hrun
      exact hI
  | call c k ih =>
      obtain ⟨rw, hc, hk⟩ := Option.bind_eq_some_iff.mp hrun
      exact ih rw.1 (hp.2 rw.1) hk (hstep c w rw.1 rw.2 hp.1 hI hc)

/-- Every run of the program relates where it starts to where it ends. -/
def Spans (f : World → (c : Cmd) → Option (Except Err (Resp c) × World))
    (R : World → World → Prop) (p : Prog Resp Err α) : Prop :=
  ∀ ⦃w r w'⦄, p.run f w = some (r, w') → R w w'

section Spans

variable {f : World → (c : Cmd) → Option (Except Err (Resp c) × World)}
  {R : World → World → Prop}

theorem Issues.spans {p : Prog Resp Err α} (hp : p.Issues N) (hrefl : ∀ w, R w w)
    (htrans : ∀ a b c, R a b → R b c → R a c)
    (hstep : ∀ c w r w', N c → f w c = some (r, w') → R w w') : p.Spans f R := by
  intro w r w' hrun
  refine hp.run (I := R w) (fun c w₁ r₁ w₂ hc hw hexec => ?_) hrun (hrefl w)
  exact htrans _ _ _ hw (hstep c w₁ r₁ w₂ hc hexec)

theorem Spans.bind {p : Prog Resp Err α} {q : α → Prog Resp Err β}
    (htrans : ∀ a b c, R a b → R b c → R a c) (hp : p.Spans f R) (hq : ∀ a, (q a).Spans f R) :
    (p >>= q).Spans f R := by
  intro w r w' hrun
  rw [run_bind] at hrun
  obtain ⟨⟨r₁, w₁⟩, hfirst, hrest⟩ := Option.bind_eq_some_iff.mp hrun
  cases r₁ with
  | ok a => exact htrans _ _ _ (hp hfirst) (hq a hrest)
  | error e =>
      cases hrest
      exact hp hfirst

theorem Spans.tryExcept {p : Prog Resp Err α} {h : Err → Prog Resp Err α}
    (htrans : ∀ a b c, R a b → R b c → R a c) (hp : p.Spans f R) (hh : ∀ e, (h e).Spans f R) :
    (p.tryExcept h).Spans f R := by
  intro w r w' hrun
  rw [run_tryExcept] at hrun
  obtain ⟨⟨r₁, w₁⟩, hfirst, hrest⟩ := Option.bind_eq_some_iff.mp hrun
  cases r₁ with
  | ok a =>
      cases hrest
      exact hp hfirst
  | error e => exact htrans _ _ _ (hp hfirst) (hh e hrest)

end Spans

/-- A run can be made from a related world, when each command of it can. -/
theorem Issues.transfer {M : Machine Resp Err World Choice Env} {i : Nat}
    {R : World → World → Prop} {p : Prog Resp Err α} (hp : p.Issues N)
    (hstep : ∀ c a b ch r a', N c → R a b → M.exec i ch a c = some (r, a') →
      ∃ b', M.exec i ch b c = some (r, b') ∧ R a' b') {a b a' : World} {r : Except Err α}
    (hrun : Solo M .any i a p r a') (hR : R a b) : ∃ b', Solo M .any i b p r b' ∧ R a' b' := by
  induction hrun generalizing b with
  | ret => exact ⟨b, .ret, hR⟩
  | raise => exact ⟨b, .raise, hR⟩
  | call ch _ hexec _ ih =>
      obtain ⟨b₁, hexec', hR'⟩ := hstep _ _ _ ch _ _ hp.1 hR hexec
      obtain ⟨b', hrest, hlast⟩ := ih (hp.2 _) hR'
      exact ⟨b', .call ch rfl hexec' hrest, hlast⟩

/-- Every value that the program can end with satisfies `P`, whatever its commands
answer. -/
def Returns (P : α → Prop) : Prog Resp Err α → Prop
  | ret a => P a
  | raise _ => True
  | call _ k => ∀ r, (k r).Returns P

section Returns

variable {P : α → Prop} {Q : β → Prop}

theorem returns_any (p : Prog Resp Err α) : p.Returns fun _ => True := by
  induction p with
  | ret a => trivial
  | raise e => trivial
  | call c k ih => exact ih

theorem Returns.bind {p : Prog Resp Err α} {f : α → Prog Resp Err β} (hp : p.Returns P)
    (hf : ∀ a, P a → (f a).Returns Q) : (p >>= f).Returns Q := by
  induction p with
  | ret a => exact hf a hp
  | raise e => trivial
  | call c k ih => exact fun r => ih r (hp r)

theorem Returns.tryExcept {p : Prog Resp Err α} {h : Err → Prog Resp Err α} (hp : p.Returns P)
    (hh : ∀ e, (h e).Returns P) : (p.tryExcept h).Returns P := by
  induction p with
  | ret a => exact hp
  | raise e => exact hh e
  | call c k ih => exact fun r => ih r (hp r)

theorem Returns.solo {M : Machine Resp Err World Choice Env} {π : Policy Cmd World Choice Env}
    {i : Nat} {w w' : World} {p : Prog Resp Err α} {r : Except Err α} {a : α} (hp : p.Returns P)
    (hrun : Solo M π i w p r w') (hr : r = .ok a) : P a := by
  induction hrun with
  | ret =>
      cases hr
      exact hp
  | raise => cases hr
  | call ch _ _ _ ih => exact ih (hp _) hr

end Returns

end Prog

namespace Discipline

variable {D : Discipline Resp Err World Choice Env} {i : Nat} {N : Cmd → Prop}
  {I : World → Prop}

theorem wp_issues {p : Prog Resp Err α} (hp : p.Issues N)
    (hduty : ∀ c w, N c → I w → D.duty i w c)
    (hcrash : ∀ c w, N c → I w → D.policy.crash i w c = true →
      ∀ w', D.Later i (D.machine.crash i w) w' → I w')
    (hstep : ∀ c w ch r w₁, N c → I w → D.policy.step i ch w c = true →
      D.machine.exec i ch w c = some (r, w₁) → ∀ w', D.Later i w₁ w' → I w')
    {w : World} (hI : I w) : D.wp i p (fun _ => I) w := by
  induction p generalizing w with
  | ret a => exact hI
  | raise e => exact hI
  | call c k ih =>
      refine ⟨hduty c w hp.1 hI, hcrash c w hp.1 hI, fun ch r w₁ hadm hexec w' hw' => ?_⟩
      exact ih r (hp.2 r) (hstep c w ch r w₁ hp.1 hI hadm hexec w' hw')

theorem wp_alone_issues {M : Machine Resp Err World Choice Env} {π : Policy Cmd World Choice Env}
    {p : Prog Resp Err α} (hp : p.Issues N)
    (hstep : ∀ c w ch r w', N c → I w → π.step i ch w c = true →
      M.exec i ch w c = some (r, w') → I w')
    {w : World} (hI : I w) : (alone M π i).wp i p (ends (fun _ => I) fun _ => I) w := by
  have hwp : (alone M π i).wp i p (fun _ => I) w := by
    refine wp_issues hp (fun _ _ _ _ => trivial) (fun _ _ _ _ hcrash => ?_) ?_ hI
    · simp [alone] at hcrash
    · intro c w ch r w₁ hc hI hadm hexec w' hw'
      have heq : w₁ = w' := hw'.2 rfl
      exact heq ▸ hstep c w ch r w₁ hc hI (Bool.and_eq_true_iff.mp hadm).2 hexec
  exact wp_mono (fun o w hw => by cases o <;> first | exact hw | trivial) hwp

end Discipline

end EventAnalytics.Library
