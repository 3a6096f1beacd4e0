import EventAnalytics.Library.Atomic

/-! Where a program is in its run: what it issues next, and what becomes of the run when
this one command goes wrong. -/
namespace EventAnalytics.Library

variable {Cmd : Type} {Resp : Cmd → Type} {Err World α β : Type}

namespace Prog

/-- What is left of a program after `n` commands, and where. -/
def advance (f : World → (c : Cmd) → Option (Except Err (Resp c) × World)) :
    Nat → Prog Resp Err α → World → Option (Prog Resp Err α × World)
  | 0, p, w => some (p, w)
  | n + 1, .call c k, w => (f w c).bind fun rw => advance f n (k rw.1) rw.2
  | _ + 1, _, _ => none

/-- The run in which `g` answers the command that comes after `n` others, and `f` all
others. -/
def runFault (f g : World → (c : Cmd) → Option (Except Err (Resp c) × World)) (n : Nat)
    (p : Prog Resp Err α) (w : World) : Option (Except Err α × World) :=
  (p.advance f n w).bind fun pw =>
    match pw.1 with
    | .call c k => (g pw.2 c).bind fun rw => (k rw.1).run f rw.2
    | _ => none

/-- Issues commands of `N` only, and every exception that one of them raises ends the
program. -/
inductive Straight (N : Cmd → Prop) : Prog Resp Err α → Prop
  | ret (a : α) : Straight N (.ret a)
  | raise (e : Err) : Straight N (.raise e)
  | call {c : Cmd} {k : Except Err (Resp c) → Prog Resp Err α} (hc : N c)
      (herror : ∀ e, k (.error e) = .raise e) (hok : ∀ a, Straight N (k (.ok a))) :
      Straight N (.call c k)

variable {f g : World → (c : Cmd) → Option (Except Err (Resp c) × World)}

theorem runFault_eq {n : Nat} {p : Prog Resp Err α} {w w₁ w₂ : World} {c : Cmd}
    {k : Except Err (Resp c) → Prog Resp Err α} {r : Except Err (Resp c)}
    (hp : p.advance f n w = some (.call c k, w₁)) (hc : g w₁ c = some (r, w₂)) :
    p.runFault f g n w = (k r).run f w₂ := by
  simp only [runFault, hp, Option.bind_some, hc]

section Contexts

variable {n : Nat} {p : Prog Resp Err α} {w w₁ : World} {c : Cmd}
  {k : Except Err (Resp c) → Prog Resp Err α}

theorem advance_bind_call (q : α → Prog Resp Err β)
    (hp : p.advance f n w = some (.call c k, w₁)) :
    (p >>= q).advance f n w = some (.call c fun r => k r >>= q, w₁) := by
  induction n generalizing p w with
  | zero =>
      cases hp
      rfl
  | succ n ih =>
      cases p with
      | ret a => cases hp
      | raise e => cases hp
      | call c' k' =>
          obtain ⟨rw, hc, hk⟩ := Option.bind_eq_some_iff.mp hp
          change ((f w c').bind fun rw => (k' rw.1 >>= q).advance f n rw.2) = _
          rw [hc]
          exact ih hk

theorem advance_bind_ret {a : α} (q : α → Prog Resp Err β) (m : Nat)
    (hp : p.advance f n w = some (.ret a, w₁)) :
    (p >>= q).advance f (n + m) w = (q a).advance f m w₁ := by
  induction n generalizing p w with
  | zero =>
      cases hp
      rw [Nat.zero_add]
      rfl
  | succ n ih =>
      cases p with
      | ret b => cases hp
      | raise e => cases hp
      | call c' k' =>
          obtain ⟨rw, hc, hk⟩ := Option.bind_eq_some_iff.mp hp
          rw [Nat.add_right_comm]
          change ((f w c').bind fun rw => (k' rw.1 >>= q).advance f (n + m) rw.2) = _
          rw [hc]
          exact ih hk

theorem advance_tryExcept (h : Err → Prog Resp Err α)
    (hp : p.advance f n w = some (.call c k, w₁)) :
    (p.tryExcept h).advance f n w = some (.call c fun r => (k r).tryExcept h, w₁) := by
  induction n generalizing p w with
  | zero =>
      cases hp
      rfl
  | succ n ih =>
      cases p with
      | ret a => cases hp
      | raise e => cases hp
      | call c' k' =>
          obtain ⟨rw, hc, hk⟩ := Option.bind_eq_some_iff.mp hp
          change ((f w c').bind fun rw => ((k' rw.1).tryExcept h).advance f n rw.2) = _
          rw [hc]
          exact ih hk

theorem run_of_advance {a : α} (hp : p.advance f n w = some (.ret a, w₁)) :
    p.run f w = some (.ok a, w₁) := by
  induction n generalizing p w with
  | zero =>
      cases hp
      rfl
  | succ n ih =>
      cases p with
      | ret b => cases hp
      | raise e => cases hp
      | call c' k' =>
          obtain ⟨rw, hc, hk⟩ := Option.bind_eq_some_iff.mp hp
          change ((f w c').bind fun rw => (k' rw.1).run f rw.2) = _
          rw [hc]
          exact ih hk

end Contexts

section Along

/-- Every command that is issued in the run satisfies `P`. -/
def Along (f : World → (c : Cmd) → Option (Except Err (Resp c) × World)) (P : Cmd → Prop)
    (p : Prog Resp Err α) (w : World) : Prop :=
  ∀ n c k w', p.advance f n w = some (.call c k, w') → P c

variable {P : Cmd → Prop} {w : World} {c : Cmd}

theorem along_ret (a : α) : Along f P (.ret a : Prog Resp Err α) w := by
  intro n c k w' h
  cases n <;> cases h

theorem along_raise (e : Err) : Along f P (.raise e : Prog Resp Err α) w := by
  intro n c k w' h
  cases n <;> cases h

theorem along_call {k : Except Err (Resp c) → Prog Resp Err α} :
    Along f P (.call c k) w ↔ P c ∧ ∀ r w', f w c = some (r, w') → Along f P (k r) w' := by
  constructor
  · intro h
    refine ⟨h 0 c k w rfl, fun r w' hc n c' k' w'' hrest => h (n + 1) c' k' w'' ?_⟩
    change ((f w c).bind fun rw => (k rw.1).advance f n rw.2) = _
    rw [hc]
    exact hrest
  · rintro ⟨hP, hrest⟩ n c' k' w'' h
    cases n with
    | zero =>
        cases h
        exact hP
    | succ n =>
        obtain ⟨rw, hc, hk⟩ := Option.bind_eq_some_iff.mp h
        exact hrest rw.1 rw.2 hc n c' k' w'' hk

theorem along_perform {q : Resp c → Prog Resp Err β} :
    Along f P (perform c >>= q) w ↔
      P c ∧ ∀ a w', f w c = some (.ok a, w') → Along f P (q a) w' := by
  refine along_call.trans (and_congr_right fun _ => ⟨fun h a w' hc => h (.ok a) w' hc, ?_⟩)
  rintro h (e | a) w' hc
  · exact along_raise e
  · exact h a w' hc

theorem along_bind {p : Prog Resp Err α} {q : α → Prog Resp Err β} :
    Along f P (p >>= q) w ↔
      Along f P p w ∧ ∀ a w', p.run f w = some (.ok a, w') → Along f P (q a) w' := by
  induction p generalizing w with
  | ret a =>
      constructor
      · intro h
        refine ⟨along_ret a, fun b w' hrun => ?_⟩
        cases hrun
        exact h
      · exact fun h => h.2 a w rfl
  | raise e => exact iff_of_true (along_raise e) ⟨along_raise e, fun a w' h => by cases h⟩
  | call c k ih =>
      change Along f P (.call c fun r => k r >>= q) w ↔ _
      rw [along_call, along_call, and_assoc]
      refine and_congr_right fun _ => ?_
      constructor
      · intro h
        refine ⟨fun r w' hc => ((ih r).mp (h r w' hc)).1, fun a w'' hrun => ?_⟩
        obtain ⟨⟨r, w'⟩, hc, hk⟩ := Option.bind_eq_some_iff.mp hrun
        exact ((ih r).mp (h r w' hc)).2 a w'' hk
      · rintro ⟨hk, hq⟩ r w' hc
        exact (ih r).mpr ⟨hk r w' hc, fun a w'' hrun =>
          hq a w'' (Option.bind_eq_some_iff.mpr ⟨(r, w'), hc, hrun⟩)⟩

theorem Along.run_eq {p : Prog Resp Err α} (hfg : ∀ w c, P c → f w c = g w c)
    (hp : Along f P p w) : p.run f w = p.run g w := by
  induction p generalizing w with
  | ret a => rfl
  | raise e => rfl
  | call c k ih =>
      obtain ⟨hP, hrest⟩ := along_call.mp hp
      simp only [run]
      rw [← hfg w c hP]
      apply Option.bind_congr
      rintro ⟨r, w'⟩ hc
      exact ih r (hrest r w' hc)

end Along

namespace Straight

variable {N : Cmd → Prop} {p : Prog Resp Err α} {q : α → Prog Resp Err β}

theorem perform {c : Cmd} (hc : N c) : Straight N (perform c : Prog Resp Err (Resp c)) :=
  .call hc (fun _ => rfl) fun a => .ret a

theorem ofExcept (r : Except Err α) : Straight N (ofExcept r : Prog Resp Err α) := by
  cases r with
  | ok a => exact .ret a
  | error e => exact .raise e

theorem bind (hp : Straight N p) (hq : ∀ a, Straight N (q a)) : Straight N (p >>= q) := by
  induction hp with
  | ret a => exact hq a
  | raise e => exact .raise e
  | call hc herror _ ih =>
      apply Straight.call hc
      · intro e
        rw [herror]
        rfl
      · exact ih

theorem embed {Cmd' : Type} {Resp' : Cmd' → Type} {h : Cmd → Cmd'}
    {g : ∀ c, Except Err (Resp' (h c)) → Except Err (Resp c)} {N' : Cmd' → Prop}
    (hp : Straight N p) (hN : ∀ c, N c → N' (h c)) (herror : ∀ c e, g c (.error e) = .error e)
    (hok : ∀ c a, ∃ b, g c (.ok a) = .ok b) : Straight N' (p.embed h g) := by
  induction hp with
  | ret a => exact .ret a
  | raise e => exact .raise e
  | call hc hraise _ ih =>
      apply Straight.call (hN _ hc)
      · intro e
        rw [herror, hraise]
        rfl
      · intro a
        obtain ⟨b, hb⟩ := hok _ a
        rw [hb]
        exact ih b

section Runs

variable {R : World → World → Prop} (hrefl : ∀ w, R w w)
  (htrans : ∀ a b c, R a b → R b c → R a c)
  (hstep : ∀ w c a w', N c → f w c = some (.ok a, w') → R w w')
include hrefl htrans hstep

theorem run {a : α} {w w' : World} (hp : Straight N p) (hrun : p.run f w = some (.ok a, w')) :
    R w w' := by
  induction hp generalizing w with
  | ret b =>
      cases hrun
      exact hrefl _
  | raise e => cases hrun
  | call hc herror _ ih =>
      obtain ⟨⟨r, w₁⟩, hcall, hrest⟩ := Option.bind_eq_some_iff.mp hrun
      cases r with
      | ok b => exact htrans _ _ _ (hstep _ _ _ _ hc hcall) (ih b hrest)
      | error e =>
          rw [herror] at hrest
          cases hrest

theorem advance {n : Nat} {w w' : World} {c : Cmd} {k : Except Err (Resp c) → Prog Resp Err α}
    (hstraight : Straight N p) (hp : p.advance f n w = some (.call c k, w')) :
    R w w' ∧ N c ∧ ∀ e, k (.error e) = .raise e := by
  induction n generalizing p w with
  | zero =>
      cases hp
      cases hstraight with
      | call hc herror hok => exact ⟨hrefl _, hc, herror⟩
  | succ n ih =>
      cases hstraight with
      | ret a => cases hp
      | raise e => cases hp
      | call hc herror hok =>
          obtain ⟨⟨r, w₁⟩, hcall, hrest⟩ := Option.bind_eq_some_iff.mp hp
          cases r with
          | ok a =>
              obtain ⟨hR, hnext⟩ := ih (hok a) hrest
              exact ⟨htrans _ _ _ (hstep _ _ _ _ hc hcall) hR, hnext⟩
          | error e =>
              rw [herror] at hrest
              cases n <;> cases hrest

end Runs

end Straight

end Prog

end EventAnalytics.Library
