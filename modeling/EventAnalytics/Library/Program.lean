import Mathlib.Init

/-! Programs over atomic commands. A program is the text of one thread: it
issues a command, receives either the response or the exception that the
command raised, and continues. Nothing here says what a command does. -/
namespace EventAnalytics.Library

/-- A program that issues commands `c : Cmd`, each answered by a `Resp c` or by
an exception of type `Err`, and ends with a value or an uncaught exception. -/
inductive Prog {Cmd : Type} (Resp : Cmd → Type) (Err : Type) (α : Type) : Type
  | ret (a : α)
  | raise (e : Err)
  | call (c : Cmd) (k : Except Err (Resp c) → Prog Resp Err α)

namespace Prog

variable {Cmd : Type} {Resp : Cmd → Type} {Err α β : Type}

def bind : Prog Resp Err α → (α → Prog Resp Err β) → Prog Resp Err β
  | ret a, f => f a
  | raise e, _ => raise e
  | call c k, f => call c fun r => (k r).bind f

instance : Monad (Prog Resp Err) where
  pure := ret
  bind := bind

/-- `try: p except Exception as e: h e`. -/
def tryExcept : Prog Resp Err α → (Err → Prog Resp Err α) → Prog Resp Err α
  | ret a, _ => ret a
  | raise e, h => h e
  | call c k, h => call c fun r => (k r).tryExcept h

def ofExcept : Except Err α → Prog Resp Err α
  | .ok a => ret a
  | .error e => raise e

def perform (c : Cmd) : Prog Resp Err (Resp c) :=
  call c ofExcept

/-- The same program over more commands: `f` finds each command among them, and `g`
reads the answer. -/
def embed {Cmd' : Type} {Resp' : Cmd' → Type} (f : Cmd → Cmd')
    (g : ∀ c, Except Err (Resp' (f c)) → Except Err (Resp c)) :
    Prog Resp Err α → Prog Resp' Err α
  | ret a => ret a
  | raise e => raise e
  | call c k => call (f c) fun r => (k (g c r)).embed f g

@[simp] theorem pure_eq (a : α) : (pure a : Prog Resp Err α) = ret a := rfl

@[simp] theorem ret_bind (a : α) (f : α → Prog Resp Err β) : ret a >>= f = f a := rfl

@[simp] theorem raise_bind (e : Err) (f : α → Prog Resp Err β) :
    (raise e : Prog Resp Err α) >>= f = raise e := rfl

@[simp] theorem call_bind (c : Cmd) (k : Except Err (Resp c) → Prog Resp Err α)
    (f : α → Prog Resp Err β) : call c k >>= f = call c fun r => k r >>= f := rfl

section Embed

variable {Cmd' : Type} {Resp' : Cmd' → Type} {f : Cmd → Cmd'}
  {g : ∀ c, Except Err (Resp' (f c)) → Except Err (Resp c)}

theorem embed_bind (p : Prog Resp Err α) (q : α → Prog Resp Err β) :
    (p >>= q).embed f g = p.embed f g >>= fun a => (q a).embed f g := by
  induction p with
  | ret a => rfl
  | raise e => rfl
  | call c k ih => exact congrArg (call (f c)) (funext fun r => ih (g c r))

theorem embed_tryExcept (p : Prog Resp Err α) (h : Err → Prog Resp Err α) :
    (p.tryExcept h).embed f g = (p.embed f g).tryExcept fun e => (h e).embed f g := by
  induction p with
  | ret a => rfl
  | raise e => rfl
  | call c k ih => exact congrArg (call (f c)) (funext fun r => ih (g c r))

end Embed

theorem bind_assoc {γ : Type} (p : Prog Resp Err α) (q : α → Prog Resp Err β)
    (r : β → Prog Resp Err γ) : p >>= q >>= r = p >>= fun a => q a >>= r := by
  induction p with
  | ret a => rfl
  | raise e => rfl
  | call c k ih => exact congrArg (call c) (funext ih)

@[simp] theorem map_eq (f : α → β) (p : Prog Resp Err α) :
    f <$> p = p >>= fun a => ret (f a) := rfl

end Prog

end EventAnalytics.Library
