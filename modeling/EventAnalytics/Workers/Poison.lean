import EventAnalytics.Workers.NoLoss

/-! Which messages are dead-lettered. The handler counts any exception against
the message at hand, also the one that PostgreSQL raises for every statement
after the transaction has been aborted by another message. -/
namespace EventAnalytics.Workers

open Library Library.Discipline Redis

/-- The message itself is at fault: the worker cannot make a row of it, or the
database does not accept the row. `accepts` is the verdict on a row that is
inserted alone; it does not look at `server_ts`. -/
def AtFault (py : Python) (accepts : EventRow → Bool) (fields : Entry) : Prop :=
  rowOf py fields = none ∨ ∃ make, rowOf py fields = some make ∧ accepts (make 0) = false

/-- A `SET` with an expiry of no seconds, which Redis refuses. -/
def refused : Cmd → Bool
  | .setNx _ ttl | .setXx _ ttl | .setDone _ ttl => ttl = 0
  | _ => false

/-- Redis is available, and the database rejects exactly the rows that it does not
accept, but for a row that another open transaction holds, on which a deadlock
may be found. A worker may die at any time. -/
def available (accepts : EventRow → Bool) : BackendPolicy where
  step i ch w c :=
    match ch, c with
    | .ok, c => !refused c
    | _, .insertEvent row _ =>
      !accepts row.untimed || w.heldByOther i row.eventId
    | _, _ => false
  crash := fun _ _ _ => true
  env := fun _ _ => true

/-- As before, and a message that is due for the dead-letter stream finds a
transaction that is not aborted and its row not held, unless it is at fault. -/
def sparing (accepts : EventRow → Bool) (settings : Nat → Settings) : BackendPolicy where
  step i ch w c :=
    (available accepts).step i ch w c &&
      match c with
      | .insertEvent row (.delivery _ n) =>
        n < (settings i).eventMaxDeliveries || !accepts row.untimed ||
          !(w.aborted i || w.heldByOther i row.eventId)
      | _ => true
  crash := fun _ _ _ => true
  env := fun _ _ => true

/-- Only messages at fault may be dead-lettered; what gets lost is not at issue. -/
def onlyPoison (py : Python) (accepts : EventRow → Bool) : Terms :=
  ⟨False, AtFault py accepts⟩

theorem effect_redis {i : Nat} {w : World} {c : Cmd} (hquiet : c.quiet = true)
    (hrefused : refused c = false) : ∃ a w', effect i w c = some (.ok a, w') := by
  cases c <;> simp only [Cmd.quiet, Bool.false_eq_true] at hquiet <;>
    simp only [refused, decide_eq_false_iff_not] at hrefused
  case setNx e ttl =>
    simp only [effect, hrefused, if_false]
    split <;> exact ⟨_, _, rfl⟩
  case setXx e ttl => exact ⟨(), _, by simp only [effect, hrefused, if_false]; rfl⟩
  case setDone e ttl => exact ⟨(), _, by simp only [effect, hrefused, if_false]; rfl⟩
  all_goals exact ⟨_, _, rfl⟩

theorem onlyPoison_respected (py : Python) (accepts : EventRow → Bool)
    (settings : Nat → Settings) (i : Nat) :
    (onlyPoison py accepts).Respected py (settings i) (sparing accepts settings) i where
  gentle := fun h => h.elim
  invalid := fun _ h => .inl h
  rejected := by
    intro ch w w' id n fields make serverTs e hadm hexec hdue _ hrow
    obtain ⟨row, -, hmake⟩ := rowOf_row hrow
    have hsame : (make serverTs).untimed = make 0 := untimed_make hmake serverTs
    refine .inr ⟨make, hrow, ?_⟩
    by_contra haccepts
    simp only [sparing, available, hsame, Bool.and_eq_true, Bool.or_eq_true, decide_eq_true_eq,
      Bool.not_eq_true', haccepts, or_false, not_lt.mpr hdue, false_or, Bool.or_eq_false_iff]
      at hadm
    obtain ⟨havailable, haborted, hheld⟩ := hadm
    rcases exec_insertEvent hexec with ⟨hr, -⟩ | ⟨hr, -⟩ | ⟨-, -, hch⟩ | ⟨-, -, hch⟩
    · cases hr
    · cases hr
    · rcases hch with rfl | ⟨-, htrue⟩
      · exact haccepts (by simpa [hheld, hsame] using havailable)
      · simp [haborted] at htrue
    · subst hch
      exact haccepts (by simpa [hheld, hsame] using havailable)
  quiet := by
    intro ch w w' c e hquiet hadm hexec
    simp only [sparing, available, Bool.and_eq_true] at hadm
    cases ch with
    | ok =>
        obtain ⟨a, w₁, heffect⟩ := effect_redis (i := i) (w := w) hquiet (by simpa using hadm.1)
        cases heffect.symm.trans hexec
    | raiseBefore => cases c <;> simp [Cmd.quiet] at hquiet hadm
    | raiseAfter => cases c <;> simp [Cmd.quiet] at hquiet hadm

/-- In runs where no message is judged inside a transaction that another message
has spoilt, whatever is dead-lettered is at fault. -/
theorem atFault_of_sparing (py : Python) (accepts : EventRow → Bool)
    (settings : Nat → Settings) {w : World} (hfresh : Fresh w)
    {cfg : Config Cmd.Resp Exn World PassResult}
    (hreach : Reach backend (sparing accepts settings) (passes py settings w) cfg) :
    ∀ d ∈ cfg.world.dlq, Blamed (AtFault py accepts) cfg.world d.originalId :=
  ((keeps_passes (hfresh.custody py (onlyPoison py accepts))
    (onlyPoison_respected py accepts settings)).reach hreach).inv.blamed

def noNul (row : EventRow) : Bool :=
  match row.sessionId with
  | .str s => !s.toList.contains (Char.ofNat 0)
  | _ => true

/-- A pass over the bad message and the good one behind it, a minute after the last
one. The first `INSERT` is rejected; the second finds the transaction aborted. -/
def poisonedPass (steps i : Nat) : List (Act Choice EnvAct) :=
  .env (.tick 60000) :: .start i :: List.replicate 4 (.step i .ok) ++ .step i .raiseAfter ::
    List.replicate steps (.step i .ok)

/-- Five deliveries behind the same bad message, and a message that the database
would accept is dead-lettered. -/
theorem dead_lettered_behind_poison :
    ¬ ∀ cfg, Reach backend (available noNul)
        (passes mixedBatch (fun _ => {}) (queued [badText, goodText])) cfg →
      ∀ d ∈ cfg.world.dlq, Blamed (AtFault mixedBatch noNul) cfg.world d.originalId := by
  intro h
  obtain ⟨cfg, hreach, htest⟩ := exists_reach_of_run (M := backend) (π := available noNul)
    ((List.range 5).flatMap (poisonedPass 7))
    (passes mixedBatch (fun _ => {}) (queued [badText, goodText]))
    (fun cfg => decide (cfg.world.stream.added = [⟨some badText⟩, ⟨some goodText⟩] ∧
      cfg.world.dlq.map DeadLetter.originalId = [0, 1])) (by decide +kernel)
  obtain ⟨hadded, hdlq⟩ := of_decide_eq_true htest
  have hgood : (1 : Nat) ∈ cfg.world.dlq.map DeadLetter.originalId := by simp [hdlq]
  obtain ⟨d, hd, hid⟩ := List.mem_map.mp hgood
  obtain ⟨fields, hfields, hfault⟩ := h cfg hreach d hd
  rw [hid, hadded] at hfields
  cases hfields
  have haccepted : (rowOf mixedBatch ⟨some goodText⟩).map (fun make => noNul (make 0)) =
      some true := by decide +kernel
  rcases hfault with hnone | ⟨make, hmake, hrejected⟩
  · simp [hnone] at haccepted
  · simp [hmake, hrejected] at haccepted

theorem atFault_of_sparing_bad_alone :
    ∃ cfg, Reach backend (sparing noNul fun _ => {})
        (passes mixedBatch (fun _ => {}) (queued [badText])) cfg ∧
      cfg.world.dlq.map DeadLetter.originalId = [0] ∧
      ∀ d ∈ cfg.world.dlq, Blamed (AtFault mixedBatch noNul) cfg.world d.originalId := by
  obtain ⟨cfg, hreach, htest⟩ := exists_reach_of_run (M := backend)
    (π := sparing noNul fun _ => {}) ((List.range 5).flatMap (poisonedPass 5))
    (passes mixedBatch (fun _ => {}) (queued [badText]))
    (fun cfg => decide (cfg.world.dlq.map DeadLetter.originalId = [0])) (by decide +kernel)
  exact ⟨cfg, hreach, of_decide_eq_true htest,
    atFault_of_sparing mixedBatch noNul (fun _ => {}) ⟨rfl, rfl, rfl, rfl⟩ hreach⟩

end EventAnalytics.Workers
