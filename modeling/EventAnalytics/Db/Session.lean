import EventAnalytics.Library.Atomic

/-! `app/db/session.py`: how a session ends, over any commands. -/
namespace EventAnalytics.Db

open Library

variable {Cmd : Type} {Resp : Cmd → Type} {Err α : Type}

/-- `async with async_session_factory() as session`: the session is closed, which
rolls back what is not committed, however the body ends. -/
def withSession (rollback : Prog Resp Err Unit) (body : Prog Resp Err α) : Prog Resp Err α := do
  let r ← body.tryExcept fun exc => do
    rollback
    .raise exc
  rollback
  pure r

/-- `get_db`: commit when the handler returns, roll back when it raises. The request ends
with the commit; whether the response has been sent by then depends on FastAPI. -/
def getDb (commit rollback : Prog Resp Err Unit) (handler : Prog Resp Err α) :
    Prog Resp Err α :=
  withSession rollback do
    let r ← handler
    commit
    pure r

theorem run_getDb_inv {World : Type}
    {f : World → (c : Cmd) → Option (Except Err (Resp c) × World)}
    {commit rollback : Prog Resp Err Unit} {handler : Prog Resp Err α} {w w' : World} {a : α}
    (h : (getDb commit rollback handler).run f w = some (.ok a, w')) :
    ∃ w₁ w₂, handler.run f w = some (.ok a, w₁) ∧ commit.run f w₁ = some (.ok (), w₂) ∧
      rollback.run f w₂ = some (.ok (), w') := by
  obtain ⟨b, w₃, htry, hclose⟩ := Prog.run_bind_inv h
  obtain ⟨u, w₄, hrollback, hret⟩ := Prog.run_bind_inv hclose
  cases hret
  rcases Prog.run_tryExcept_inv htry with hbody | ⟨e, w₁, -, hraise⟩
  · obtain ⟨c, w₁, hhandler, hcommit⟩ := Prog.run_bind_inv hbody
    obtain ⟨u', w₂, hcommit, hret⟩ := Prog.run_bind_inv hcommit
    cases hret
    exact ⟨w₁, _, hhandler, hcommit, hrollback⟩
  · obtain ⟨u', w₂, -, hnever⟩ := Prog.run_bind_inv hraise
    cases hnever

end EventAnalytics.Db
