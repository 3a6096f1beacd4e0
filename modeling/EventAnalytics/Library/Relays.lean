import EventAnalytics.Library.Footprint

/-! What a program passes on: the commands that it issues and the value that it returns,
as long as its own commands are answered as promised. -/
namespace EventAnalytics.Library

variable {Cmd : Type} {Resp : Cmd → Type} {Err World Choice Env α β : Type}

namespace Prog

/-- Answered by `A`, the program issues commands of `N` only and returns a value of `R`. -/
def Relays (A : (c : Cmd) → Except Err (Resp c) → Prop) (N : Cmd → Prop) (R : α → Prop) :
    Prog Resp Err α → Prop
  | ret a => R a
  | raise _ => True
  | call c k => N c ∧ ∀ r, A c r → (k r).Relays A N R

variable {A : (c : Cmd) → Except Err (Resp c) → Prop} {N : Cmd → Prop} {R : α → Prop}
  {S : β → Prop}

theorem relays_perform {c : Cmd} (hc : N c) :
    (perform c : Prog Resp Err (Resp c)).Relays A N fun a => A c (.ok a) := by
  refine ⟨hc, fun r hr => ?_⟩
  cases r with
  | ok a => exact hr
  | error e => trivial

theorem relays_ofExcept {r : Except Err α} (hr : ∀ a, r = .ok a → R a) :
    (ofExcept r : Prog Resp Err α).Relays A N R := by
  cases r with
  | ok a => exact hr a rfl
  | error e => trivial

theorem Issues.relays {p : Prog Resp Err α} (hp : p.Issues N) (hR : ∀ a, R a) :
    p.Relays A N R := by
  induction p with
  | ret a => exact hR a
  | raise e => trivial
  | call c k ih => exact ⟨hp.1, fun r _ => ih r (hp.2 r)⟩

theorem Relays.issues {p : Prog Resp Err α} (hA : ∀ c r, A c r) (hp : p.Relays A N R) :
    p.Issues N := by
  induction p with
  | ret a => trivial
  | raise e => trivial
  | call c k ih => exact ⟨hp.1, fun r => ih r (hp.2 r (hA c r))⟩

theorem Relays.bind {p : Prog Resp Err α} {f : α → Prog Resp Err β} (hp : p.Relays A N R)
    (hf : ∀ a, R a → (f a).Relays A N S) : (p >>= f).Relays A N S := by
  induction p with
  | ret a => exact hf a hp
  | raise e => trivial
  | call c k ih => exact ⟨hp.1, fun r hr => ih r (hp.2 r hr)⟩

theorem Relays.tryExcept {p : Prog Resp Err α} {h : Err → Prog Resp Err α}
    (hp : p.Relays A N R) (hh : ∀ e, (h e).Relays A N R) : (p.tryExcept h).Relays A N R := by
  induction p with
  | ret a => exact hp
  | raise e => exact hh e
  | call c k ih => exact ⟨hp.1, fun r hr => ih r (hp.2 r hr)⟩

end Prog

namespace Discipline

variable {D : Discipline Resp Err World Choice Env} {i : Nat}
  {A : (c : Cmd) → Except Err (Resp c) → Prop} {N : Cmd → Prop} {R : α → Prop}

end Discipline

end EventAnalytics.Library
