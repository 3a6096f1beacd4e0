import EventAnalytics.Library.FirstWins
import EventAnalytics.Workers.Batch

/-! Deliveries to `_persist_event`, repeated and out of order. The events table
takes the first row of each event, and each row that has a user is counted once. -/
namespace EventAnalytics.Workers

open Library Redis

/-- A message id and the payload of the message. -/
abbrev Delivery := Nat × Dict

/-- The `try` of the loop around `_persist_event`; `none` is an exception. -/
def deliver (py : Python) (settings : Settings) (d : Delivery) : App (Option Persisted) :=
  Prog.tryExcept (some <$> persistEvent py settings (.delivery d.1 1) d.2) fun _ => pure none

def deliverAll (py : Python) (settings : Settings) : List Delivery → App (List (Option Persisted))
  | [] => pure []
  | d :: work => do
    let out ← deliver py settings d
    let outs ← deliverAll py settings work
    pure (out :: outs)

/-- What `process_event_stream` does with its session. -/
def deliverBatch (py : Python) (settings : Settings) (work : List Delivery) :
    App (List (Option Persisted)) :=
  Db.withSession (await .rollback) do
    let outs ← deliverAll py settings work
    await .commit
    pure outs

/-- The stores, the PFADDs so far as days and users, and the time that passes before
each command that is still to come. -/
structure Clocked where
  world : World
  additions : List (Nat × UUID)
  delays : Nat → Nat

def addition? : Cmd → List (Nat × UUID)
  | .pfadd day user => [(day, user)]
  | _ => []

def Clocked.tick (s : Clocked) : World :=
  { s.world with clock := s.world.clock + s.delays 0 }

def clocked (judge : EventRow → Choice) (s : Clocked) (c : Cmd) :
    Option (Except Exn c.Resp × Clocked) :=
  (answered judge s.tick c).map fun rw =>
    (rw.1, ⟨rw.2, s.additions ++ addition? c, fun n => s.delays (n + 1)⟩)

/-- The row of a payload, but for its `server_ts`. -/
def decodedRow (py : Python) (data : Dict) : Option EventRow :=
  match decodeEvent py data with
  | .ok (.row make) => some (make 0)
  | _ => none

def accepted (py : Python) (judge : EventRow → Choice) (d : Delivery) : Option EventRow :=
  (decodedRow py d.2).filter fun row => judge row = .ok

def rejected (py : Python) (judge : EventRow → Choice) (d : Delivery) : Bool :=
  (decodedRow py d.2).any fun row => judge row = .raiseAfter

def valid : Option Persisted → Bool
  | some .inserted | some .conflict => true
  | _ => false

/-- A delivery that has been handled, with the clock before and after it. -/
structure Attempt where
  delivery : Delivery
  began : Nat
  outcome : Option Persisted
  ended : Nat

/-- `deliverAll`, with what the clock showed between the deliveries. -/
def attempts (py : Python) (settings : Settings) (judge : EventRow → Choice) :
    Clocked → List Delivery → Option (List Attempt × Clocked)
  | s, [] => some ([], s)
  | s, d :: work =>
    match (deliver py settings d).run (clocked judge) s with
    | some (.ok out, s') =>
      (attempts py settings judge s' work).map fun rest =>
        (⟨d, s.world.clock, out, s'.world.clock⟩ :: rest.1, rest.2)
    | _ => none

theorem run_deliverAll {py : Python} {settings : Settings} {judge : EventRow → Choice}
    {s s' : Clocked} {work : List Delivery} {ps : List Attempt}
    (h : attempts py settings judge s work = some (ps, s')) :
    (deliverAll py settings work).run (clocked judge) s =
        some (.ok (ps.map Attempt.outcome), s') ∧
      ps.map Attempt.delivery = work := by
  induction work generalizing s ps with
  | nil =>
      cases h
      exact ⟨rfl, rfl⟩
  | cons d work ih =>
      simp only [attempts] at h
      split at h
      · rename_i out s₁ hrun
        obtain ⟨⟨rest, s₂⟩, hrest, heq⟩ := Option.map_eq_some_iff.mp h
        cases heq
        obtain ⟨hruns, hwork⟩ := ih hrest
        refine ⟨?_, congrArg (List.cons d) hwork⟩
        rw [deliverAll, Prog.run_bind_ok hrun, Prog.run_bind_ok hruns]
        rfl
      · cases h

/-- One session: the deliveries are attempted one after the other and then committed. -/
def Processed (py : Python) (settings : Settings) (judge : EventRow → Choice) (s : Clocked)
    (work : List Delivery) (ps : List Attempt) (s' : Clocked) : Prop :=
  ∃ s₁, attempts py settings judge s work = some (ps, s₁) ∧
    (deliverBatch py settings work).run (clocked judge) s =
      some (.ok (ps.map Attempt.outcome), s')

/-- The user of the row is added to the key of a day that the clock showed between the
reading for the row and the end of the delivery that inserted it. -/
def Counts (py : Python) (past : List Attempt) (a : Nat × UUID) (row : EventRow) : Prop :=
  row.userId = some a.2 ∧ ∃ p ∈ past, p.outcome = some .inserted ∧
    decodedRow py p.delivery.2 = some row.untimed ∧ p.began ≤ row.serverTs ∧
    ∃ reading, row.serverTs ≤ reading ∧ reading ≤ p.ended ∧ a.1 = dayOf reading

theorem Counts.mono {py : Python} {past past' : List Attempt} {a : Nat × UUID} {row : EventRow}
    (h : Counts py past a row) (hsub : past ⊆ past') : Counts py past' a row := by
  obtain ⟨huser, p, hp, hcounts⟩ := h
  exact ⟨huser, p, hsub hp, hcounts⟩

/-- One PFADD for each row with a user. -/
def Additions (py : Python) (past : List Attempt) (additions : List (Nat × UUID))
    (rows : List EventRow) : Prop :=
  List.Forall₂ (Counts py past) additions (rows.filter fun row => row.userId.isSome)

theorem Additions.mono {py : Python} {past past' : List Attempt}
    {additions : List (Nat × UUID)} {rows : List EventRow} (h : Additions py past additions rows)
    (hsub : past ⊆ past') : Additions py past' additions rows :=
  List.Forall₂.imp (fun _ _ hcounts => hcounts.mono hsub) h

theorem Additions.append {py : Python} {past ps : List Attempt}
    {additions more : List (Nat × UUID)} {rows new : List EventRow}
    (h : Additions py past additions rows) (hnew : Additions py ps more new) :
    Additions py (past ++ ps) (additions ++ more) (rows ++ new) := by
  unfold Additions
  rw [List.filter_append]
  exact List.rel_append (h.mono (List.subset_append_left _ _))
    (hnew.mono (List.subset_append_right _ _))

def seen (w : World) : List EventRow := (w.events ++ w.ownRows 0).map EventRow.untimed

section Deliver

variable {py : Python} {settings : Settings} {judge : EventRow → Choice} {s : Clocked}

theorem clocked_ok {c : Cmd} {a : c.Resp} {w' : World}
    (h : answered judge s.tick c = some (.ok a, w')) :
    clocked judge s c =
      some (.ok a, ⟨w', s.additions ++ addition? c, fun n => s.delays (n + 1)⟩) := by
  simp [clocked, h]

theorem clocked_now (judge : EventRow → Choice) (s : Clocked) :
    clocked judge s .now =
      some (.ok s.tick.clock, ⟨s.tick, s.additions, fun n => s.delays (n + 1)⟩) := by
  simp [clocked, answered, verdict, backend, effect, addition?]

theorem countUser_clocked (judge : EventRow → Choice) (inserted : Bool) (row : EventRow) :
    ∃ s' more, (countUser inserted row).run (clocked judge) s = some (.ok (), s') ∧
      s.world.SameLedger s'.world ∧ s.world.clock ≤ s'.world.clock ∧
      s'.additions = s.additions ++ more ∧
      List.Forall₂ (fun a row' => inserted = true ∧ row' = row ∧ row.userId = some a.2 ∧
          ∃ reading, s.world.clock ≤ reading ∧ reading ≤ s'.world.clock ∧ a.1 = dayOf reading)
        more ((if inserted then [row] else []).filter fun row => row.userId.isSome) := by
  unfold countUser
  split
  · rename_i user huser
    let s₁ : Clocked := ⟨s.tick, s.additions, fun n => s.delays (n + 1)⟩
    let s₂ : Clocked := ⟨s₁.tick.addVisitor (dayOf s.tick.clock) user,
      s₁.additions ++ [(dayOf s.tick.clock, user)], fun n => s₁.delays (n + 1)⟩
    let s₃ : Clocked := ⟨s₂.tick.expireVisitors (dayOf s.tick.clock) (3 * 86400),
      s₂.additions ++ [], fun n => s₂.delays (n + 1)⟩
    have hfrom : s.world.clock ≤ s.tick.clock := Nat.le_add_right _ _
    have hto : s.tick.clock ≤ s₃.world.clock :=
      (Nat.le_add_right _ (s₁.delays 0)).trans (Nat.le_add_right _ (s₂.delays 0))
    refine ⟨s₃, [(dayOf s.tick.clock, user)], ?_, ⟨rfl, rfl, rfl, rfl, rfl⟩, hfrom.trans hto,
      List.append_nil _, ?_⟩
    · rw [Prog.run_perform_ok (clocked_now judge s)]
      rfl
    · rw [if_pos rfl, List.filter_cons_of_pos (by simp [huser])]
      exact .cons ⟨rfl, rfl, huser, s.tick.clock, hfrom, hto, rfl⟩ .nil
  · rename_i hnone
    refine ⟨s, [], rfl, .refl _, le_rfl, by simp, ?_⟩
    cases huser : row.userId with
    | none => split <;> simp [huser]
    | some user =>
        rw [if_neg fun h => hnone user h huser]
        exact .nil

theorem persistRow_clocked_ok (httl : settings.idemTtlSeconds ≠ 0) {make : Nat → EventRow}
    {row : EventRow} (hmake : ∀ serverTs, make serverTs = { row with serverTs := serverTs })
    (hjudge : judge (make 0) = .ok) (haborted : s.world.aborted 0 = false)
    (halone : ∀ jr ∈ s.world.uncommitted, jr.1 = 0) (origin : Origin) :
    ∃ inserted s', (persistRow settings origin make).run (clocked judge) s =
        some (.ok (if inserted then .inserted else .conflict), s') ∧
      inserted = !(s.world.stored row.eventId || s.world.ownsRow 0 row.eventId) ∧
      ∃ serverTs more, World.SameLedger { s.world with uncommitted := s.world.uncommitted ++
          if inserted then [(0, make serverTs)] else [] } s'.world ∧
        s.world.clock ≤ serverTs ∧ s'.additions = s.additions ++ more ∧
        List.Forall₂ (fun a row' => inserted = true ∧ row' = make serverTs ∧
            (make serverTs).userId = some a.2 ∧
            ∃ reading, serverTs ≤ reading ∧ reading ≤ s'.world.clock ∧ a.1 = dayOf reading)
          more
          ((if inserted then [make serverTs] else []).filter fun row => row.userId.isSome) := by
  let s₁ : Clocked := ⟨s.tick, s.additions, fun n => s.delays (n + 1)⟩
  have hnow : clocked judge s .now = some (.ok s.tick.clock, s₁) := clocked_now judge s
  have huntimed : (make s.tick.clock).untimed = make 0 := untimed_make hmake _
  have hid : (make s.tick.clock).eventId = row.eventId := by rw [hmake]
  have hinsert := answered_insertEvent (w := s₁.tick) (make s.tick.clock)
    (huntimed ▸ hjudge) haborted halone origin
  rw [hid] at hinsert
  let s₂ : Clocked := ⟨withRow s₁.tick (!sees s₁.tick row.eventId) (make s.tick.clock),
    s₁.additions ++ addition? (.insertEvent (make s.tick.clock) origin),
    fun n => s₁.delays (n + 1)⟩
  obtain ⟨s₃, more, hcount, hledger, hclock, hadditions, hcounted⟩ :=
    countUser_clocked (s := s₂) judge (!sees s₁.tick row.eventId) (make s.tick.clock)
  let s₄ : Clocked := ⟨s₃.tick.setKey (make s.tick.clock).eventId .done settings.idemTtlSeconds,
    s₃.additions ++ addition? (.setDone (make s.tick.clock).eventId settings.idemTtlSeconds),
    fun n => s₃.delays (n + 1)⟩
  have hfrom : s.tick.clock ≤ s₂.world.clock := Nat.le_add_right _ _
  have hto : s₃.world.clock ≤ s₄.world.clock := Nat.le_add_right _ _
  refine ⟨!sees s₁.tick row.eventId, s₄, ?_, rfl, s.tick.clock, more, ?_, Nat.le_add_right _ _, ?_,
    hcounted.imp ?_⟩
  · unfold persistRow
    rw [Prog.run_perform_ok hnow, Prog.run_perform_ok (clocked_ok hinsert),
      Prog.run_bind_ok hcount, Prog.run_perform_ok (clocked_ok (answered_setDone httl _))]
    rfl
  · exact ⟨hledger.stream, hledger.dlq, hledger.events, hledger.uncommitted, hledger.aborted⟩
  · simpa [addition?, s₁, s₂, s₄] using hadditions
  · rintro a row' ⟨hins, hrow, huser, reading, hlow, hhigh, hday⟩
    exact ⟨hins, hrow, huser, reading, hfrom.trans hlow, hhigh.trans hto, hday⟩

theorem persistRow_clocked_error (settings : Settings) {make : Nat → EventRow} {row : EventRow}
    (hmake : ∀ serverTs, make serverTs = { row with serverTs := serverTs })
    (hrefused : judge (make 0) ≠ .ok ∨ s.world.aborted 0 = true) (origin : Origin) :
    ∃ s', (persistRow settings origin make).run (clocked judge) s =
        some (.error .dbApiError, s') ∧ s'.additions = s.additions ∧
      (if judge (make 0) = .raiseAfter then s.world.abortTx 0 else s.world).SameLedger
        s'.world := by
  let s₁ : Clocked := ⟨s.tick, s.additions, fun n => s.delays (n + 1)⟩
  have hnow : clocked judge s .now = some (.ok s.tick.clock, s₁) := clocked_now judge s
  have huntimed : (make s.tick.clock).untimed = make 0 := untimed_make hmake _
  have hinsert : answered judge s₁.tick (.insertEvent (make s.tick.clock) origin) =
      some (.error .dbApiError,
        if judge (make 0) = .raiseAfter then s₁.tick.abortTx 0 else s₁.tick) := by
    simp only [answered, verdict, huntimed]
    cases hjudge : judge (make 0) with
    | ok =>
        have haborted : s₁.tick.aborted 0 = true := hrefused.resolve_left (by simp [hjudge])
        simp [backend, effect, haborted]
    | raiseBefore => rfl
    | raiseAfter => rfl
  have hrefusal : clocked judge s₁ (.insertEvent (make s.tick.clock) origin) =
      some (.error .dbApiError,
        ⟨if judge (make 0) = .raiseAfter then s₁.tick.abortTx 0 else s₁.tick, s.additions,
          fun n => s₁.delays (n + 1)⟩) := by
    simp [clocked, hinsert, addition?, s₁]
  have hrun : (persistRow settings origin make).run (clocked judge) s =
      some (.error .dbApiError,
        ⟨if judge (make 0) = .raiseAfter then s₁.tick.abortTx 0 else s₁.tick, s.additions,
          fun n => s₁.delays (n + 1)⟩) := by
    unfold persistRow
    rw [Prog.run_perform_ok hnow]
    exact Prog.run_perform_error hrefusal
  refine ⟨_, hrun, rfl, ?_⟩
  · split <;> exact ⟨rfl, rfl, rfl, rfl, rfl⟩

/-- What a stretch of deliveries in one session does. Without a rejected row the session
sees the table take in the rows; when all events are stored nothing happens at all. -/
structure Stepped (py : Python) (judge : EventRow → Choice) (s : Clocked) (ps : List Attempt)
    (s' : Clocked) : Prop where
  events : s'.world.events = s.world.events
  alone : (∀ jr ∈ s.world.uncommitted, jr.1 = 0) → ∀ jr ∈ s'.world.uncommitted, jr.1 = 0
  aborted : s'.world.aborted 0 =
    (s.world.aborted 0 || ps.any fun p => rejected py judge p.delivery)
  validity : ∀ p ∈ ps, valid p.outcome = true → (accepted py judge p.delivery).isSome = true
  clean : s'.world.aborted 0 = false →
    (∀ p ∈ ps, valid p.outcome = (accepted py judge p.delivery).isSome) ∧
      seen s'.world = absorb EventRow.eventId (seen s.world)
        (ps.filterMap fun p => accepted py judge p.delivery) ∧
      ∃ rows more, s'.world.ownRows 0 = s.world.ownRows 0 ++ rows ∧
        s'.additions = s.additions ++ more ∧ Additions py ps more rows
  idle : (∀ p ∈ ps, ∀ row, accepted py judge p.delivery = some row →
      s.world.stored row.eventId = true) → s.world.ownRows 0 = [] →
    s'.world.ownRows 0 = [] ∧ s'.additions = s.additions

theorem mem_seen {w : World} {e : UUID} :
    e ∈ (seen w).map EventRow.eventId ↔ (w.stored e || w.ownsRow 0 e) = true := by
  simp [seen, World.stored, World.ownsRow_iff, EventRow.untimed]

theorem seen_of_ledger {w w' : World} (h : w.SameLedger w') : seen w' = seen w := by
  rw [seen, seen, h.events, h.ownRows]

theorem Stepped.nothing {p : Attempt} {s' : Clocked}
    (hledger : s.world.SameLedger s'.world) (hadditions : s'.additions = s.additions)
    (hrejected : s.world.aborted 0 = true ∨ rejected py judge p.delivery = false)
    (hout : valid p.outcome = false)
    (hnone : s.world.aborted 0 = true ∨ accepted py judge p.delivery = none) :
    Stepped py judge s [p] s' := by
  refine ⟨hledger.events, ?_, ?_, by simp [hout], fun hclean => ?_, fun _ hown => ?_⟩
  · rw [hledger.uncommitted]
    exact id
  · rw [hledger.aborted]
    rcases hrejected with h | h <;> simp [h]
  · rw [hledger.aborted] at hclean
    have hnone : accepted py judge p.delivery = none := hnone.resolve_left (by simp [hclean])
    refine ⟨by simp [hout, hnone], ?_, [], [], by simp [hledger.ownRows], by simp [hadditions],
      .nil⟩
    rw [seen_of_ledger hledger]
    simp [hnone, absorb]
  · rw [hledger.ownRows]
    exact ⟨hown, hadditions⟩

theorem Stepped.aborts {p : Attempt} {s' : Clocked}
    (hledger : (s.world.abortTx 0).SameLedger s'.world) (hadditions : s'.additions = s.additions)
    (hrejected : rejected py judge p.delivery = true) (hout : valid p.outcome = false) :
    Stepped py judge s [p] s' := by
  have haborted : s'.world.aborted 0 = true := by
    rw [hledger.aborted]
    simp [World.abortTx]
  refine ⟨hledger.events, fun halone jr hjr => ?_, ?_, by simp [hout], fun hclean => ?_,
    fun _ _ => ?_⟩
  · rw [hledger.uncommitted] at hjr
    exact halone jr (List.mem_of_mem_filter hjr)
  · simp [haborted, hrejected]
  · simp [haborted] at hclean
  · rw [hledger.ownRows]
    exact ⟨s.world.ownRows_dropRows_self 0, hadditions⟩

theorem Stepped.persists {p : Attempt} {s' : Clocked} {row : EventRow} {inserted : Bool}
    {more : List (Nat × UUID)}
    (haccepted : accepted py judge p.delivery = some row.untimed)
    (hrejected : rejected py judge p.delivery = false)
    (hinserted : inserted = !(s.world.stored row.eventId || s.world.ownsRow 0 row.eventId))
    (hledger : World.SameLedger { s.world with uncommitted := s.world.uncommitted ++
      if inserted then [(0, row)] else [] } s'.world)
    (hadditions : s'.additions = s.additions ++ more)
    (hcounted : Additions py [p] more (if inserted then [row] else []))
    (hout : valid p.outcome = true) : Stepped py judge s [p] s' := by
  have hrows : s'.world.ownRows 0 = s.world.ownRows 0 ++ if inserted then [row] else [] := by
    rw [hledger.ownRows]
    cases inserted <;> simp [World.ownRows]
  refine ⟨hledger.events, fun halone jr hjr => ?_, ?_, by simp [haccepted], fun _ => ?_,
    fun hstored hown => ?_⟩
  · rw [hledger.uncommitted] at hjr
    rcases List.mem_append.mp hjr with hjr | hjr
    · exact halone jr hjr
    · cases inserted
      · simp at hjr
      · rw [List.mem_singleton.mp hjr]
  · rw [hledger.aborted]
    simp [hrejected]
  · refine ⟨by simp [hout, haccepted], ?_, _, more, hrows, hadditions, hcounted⟩
    have hseen : seen s'.world =
        seen s.world ++ (if inserted then [row] else []).map EventRow.untimed := by
      rw [seen, hledger.events, hrows]
      simp [seen]
    rw [hseen]
    simp only [List.filterMap_cons, haccepted, List.filterMap_nil, absorb]
    have hid : row.untimed.eventId = row.eventId := rfl
    rw [hid]
    cases hknown : s.world.stored row.eventId || s.world.ownsRow 0 row.eventId with
    | true =>
        rw [if_pos (mem_seen.mpr hknown)]
        simp [hinserted, hknown]
    | false =>
        rw [if_neg (mt mem_seen.mp (by simp [hknown]))]
        simp [hinserted, hknown]
  · have hknown : s.world.stored row.eventId = true :=
      hstored p List.mem_cons_self row.untimed haccepted
    rw [hknown, Bool.true_or, Bool.not_true] at hinserted
    subst hinserted
    have hnone : more = [] := by simpa [Additions] using hcounted
    rw [hrows, hadditions, hnone]
    simp [hown]

theorem run_deliver (py : Python) (judge : EventRow → Choice)
    (httl : settings.idemTtlSeconds ≠ 0)
    (halone : ∀ jr ∈ s.world.uncommitted, jr.1 = 0) (d : Delivery) :
    ∃ out s', (deliver py settings d).run (clocked judge) s = some (.ok out, s') ∧
      Stepped py judge s [⟨d, s.world.clock, out, s'.world.clock⟩] s' := by
  have hnothing : decodedRow py d.2 = none → ∀ out, valid out = false →
      Stepped py judge s [⟨d, s.world.clock, out, s.world.clock⟩] s := by
    intro hrow out hout
    exact .nothing (.refl _) rfl (.inr (by simp [rejected, hrow])) hout
      (.inr (by simp [accepted, hrow]))
  unfold deliver
  cases hdecode : decodeEvent py d.2 with
  | error exc =>
      refine ⟨none, s, ?_, hnothing (by simp [decodedRow, hdecode]) none rfl⟩
      simp [persistEvent, hdecode, Prog.ofExcept, Prog.tryExcept, Prog.run]
  | ok decoded =>
      cases decoded with
      | invalid =>
          refine ⟨some .invalid, s, ?_, hnothing (by simp [decodedRow, hdecode]) _ rfl⟩
          simp [persistEvent, hdecode, Prog.ofExcept, Prog.tryExcept, Prog.run]
      | row make =>
          obtain ⟨row, -, hmake⟩ := decodeEvent_row hdecode
          have hrow : decodedRow py d.2 = some (make 0) := by simp [decodedRow, hdecode]
          have hpersist : persistEvent py settings (.delivery d.1 1) d.2 =
              persistRow settings (.delivery d.1 1) make := by
            simp [persistEvent, hdecode, Prog.ofExcept]
          rw [hpersist]
          by_cases hok : judge (make 0) = .ok ∧ s.world.aborted 0 = false
          · obtain ⟨inserted, s', hrun, hinserted, serverTs, more, hledger, hbegan, hadditions,
                hcounted⟩ :=
              persistRow_clocked_ok httl hmake hok.1 hok.2 halone (.delivery d.1 1)
            refine ⟨some (if inserted then .inserted else .conflict), s',
              Prog.run_tryExcept_ok ?_, ?_⟩
            · rw [Prog.map_eq, Prog.run_bind_ok hrun]
              rfl
            · have huntimed : (make serverTs).untimed = make 0 := untimed_make hmake serverTs
              have hid : (make serverTs).eventId = row.eventId := by rw [hmake]
              have hts : (make serverTs).serverTs = serverTs := by rw [hmake]
              have haccepted : accepted py judge d = some (make serverTs).untimed := by
                simp [accepted, hrow, huntimed, hok.1]
              refine .persists haccepted (by simp [rejected, hrow, hok.1])
                (by rw [hid]; exact hinserted) hledger hadditions (hcounted.imp ?_)
                (by cases inserted <;> rfl)
              rintro a row' ⟨rfl, rfl, huser, reading, hlow, hhigh, hday⟩
              exact ⟨huser, _, List.mem_singleton_self _, rfl, by rw [hrow, huntimed],
                hbegan.trans_eq hts.symm, reading, hts.trans_le hlow, hhigh, hday⟩
          · have hrefused : judge (make 0) ≠ .ok ∨ s.world.aborted 0 = true := by
              simpa using not_and_or.mp hok
            obtain ⟨s', hrun, hadditions, hledger⟩ :=
              persistRow_clocked_error settings hmake hrefused (.delivery d.1 1)
            refine ⟨none, s', ?_, ?_⟩
            · rw [Prog.map_eq, Prog.run_tryExcept_error (Prog.run_bind_error hrun)]
              rfl
            · by_cases hafter : judge (make 0) = .raiseAfter
              · rw [if_pos hafter] at hledger
                exact .aborts hledger hadditions (by simp [rejected, hrow, hafter]) rfl
              · rw [if_neg hafter] at hledger
                refine .nothing hledger hadditions (.inr (by simp [rejected, hrow, hafter])) rfl ?_
                rcases hrefused with h | h
                · exact .inr (by simp [accepted, hrow, h])
                · exact .inl h

theorem Stepped.cons {p : Attempt} {ps : List Attempt} {s₁ s₂ : Clocked}
    (hone : Stepped py judge s [p] s₁) (hrest : Stepped py judge s₁ ps s₂) :
    Stepped py judge s (p :: ps) s₂ := by
  have hclean : s₂.world.aborted 0 = false → s₁.world.aborted 0 = false := by
    intro h
    rw [hrest.aborted, Bool.or_eq_false_iff] at h
    exact h.1
  refine ⟨hrest.events.trans hone.events, fun h => hrest.alone (hone.alone h), ?_, ?_,
    fun h => ?_, fun hstored hown => ?_⟩
  · rw [hrest.aborted, hone.aborted]
    simp [Bool.or_assoc]
  · exact List.forall_mem_cons.mpr ⟨hone.validity p List.mem_cons_self, hrest.validity⟩
  · obtain ⟨hvalid₁, hseen₁, rows₁, more₁, hrows₁, hadditions₁, hcounted₁⟩ := hone.clean (hclean h)
    obtain ⟨hvalid₂, hseen₂, rows₂, more₂, hrows₂, hadditions₂, hcounted₂⟩ := hrest.clean h
    refine ⟨List.forall_mem_cons.mpr ⟨hvalid₁ p List.mem_cons_self, hvalid₂⟩, ?_, rows₁ ++ rows₂,
      more₁ ++ more₂, ?_, ?_, hcounted₁.append hcounted₂⟩
    · rw [hseen₂, hseen₁, ← absorb_append, ← List.filterMap_append, List.singleton_append]
    · rw [hrows₂, hrows₁, List.append_assoc]
    · rw [hadditions₂, hadditions₁, List.append_assoc]
  · obtain ⟨hown₁, hadditions₁⟩ := hone.idle
      (fun q hq => hstored q (by simp [List.mem_singleton.mp hq])) hown
    obtain ⟨hown₂, hadditions₂⟩ := hrest.idle (fun q hq row hrow => by
      rw [World.stored, hone.events]
      exact hstored q (List.mem_cons_of_mem p hq) row hrow) hown₁
    exact ⟨hown₂, hadditions₂.trans hadditions₁⟩

theorem exists_attempts (py : Python) (judge : EventRow → Choice)
    (httl : settings.idemTtlSeconds ≠ 0)
    (halone : ∀ jr ∈ s.world.uncommitted, jr.1 = 0) (work : List Delivery) :
    ∃ ps s', attempts py settings judge s work = some (ps, s') ∧ Stepped py judge s ps s' := by
  induction work generalizing s with
  | nil =>
      refine ⟨[], s, rfl, rfl, id, by simp, by simp,
        fun _ => ⟨by simp, rfl, [], [], ?_, ?_, .nil⟩, fun _ h => ⟨h, rfl⟩⟩ <;> simp
  | cons d work ih =>
      obtain ⟨out, s₁, hrun, hone⟩ := run_deliver py judge httl halone d
      obtain ⟨ps, s₂, hruns, hrest⟩ := ih (hone.alone halone)
      refine ⟨_, s₂, ?_, hone.cons hrest⟩
      simp only [attempts, hrun, hruns, Option.map_some]

/-- What the end of the session leaves of it. -/
structure Settles (py : Python) (judge : EventRow → Choice) (s : Clocked) (ps : List Attempt)
    (s' : Clocked) : Prop where
  uncommitted : s'.world.uncommitted = []
  aborted : s'.world.aborted 0 = false
  validity : ∀ p ∈ ps, valid p.outcome = true → (accepted py judge p.delivery).isSome = true
  spoilt : (ps.any fun p => rejected py judge p.delivery) = true →
    s'.world.events = s.world.events
  clean : (ps.any fun p => rejected py judge p.delivery) = false →
    (∀ p ∈ ps, valid p.outcome = (accepted py judge p.delivery).isSome) ∧
      s'.world.events.map EventRow.untimed = absorb EventRow.eventId
        (s.world.events.map EventRow.untimed)
        (ps.filterMap fun p => accepted py judge p.delivery) ∧
      ∃ rows more, s'.world.events = s.world.events ++ rows ∧
        s'.additions = s.additions ++ more ∧ Additions py ps more rows
  idle : (∀ p ∈ ps, ∀ row, accepted py judge p.delivery = some row →
      s.world.stored row.eventId = true) →
    s'.world.events = s.world.events ∧ s'.additions = s.additions

theorem run_deliverBatch (py : Python) (judge : EventRow → Choice)
    (httl : settings.idemTtlSeconds ≠ 0) (huncommitted : s.world.uncommitted = [])
    (haborted : s.world.aborted 0 = false) (work : List Delivery) :
    ∃ ps s', Processed py settings judge s work ps s' ∧ Settles py judge s ps s' := by
  obtain ⟨ps, s₁, hattempts, hstepped⟩ := exists_attempts py judge httl (s := s)
    (by simp [huncommitted]) work
  have hrun := (run_deliverAll hattempts).1
  obtain ⟨s₂, hs₂⟩ : ∃ s₂ : Clocked, s₂ = ⟨s₁.tick.commitTx 0, s₁.additions,
      fun n => s₁.delays (n + 1)⟩ := ⟨_, rfl⟩
  obtain ⟨s₃, hs₃⟩ : ∃ s₃ : Clocked, s₃ = ⟨s₂.tick.rollbackTx 0, s₂.additions,
      fun n => s₂.delays (n + 1)⟩ := ⟨_, rfl⟩
  have hcommit : clocked judge s₁ .commit = some (.ok (), s₂) := by
    simp [clocked, answered, verdict, backend, effect, addition?, hs₂]
  have hrollback : clocked judge s₂ .rollback = some (.ok (), s₃) := by
    simp [clocked, answered, verdict, backend, effect, addition?, hs₃]
  have hbody : (deliverAll py settings work >>= fun outs => await .commit >>= fun _ =>
      pure outs).run (clocked judge) s = some (.ok (ps.map Attempt.outcome), s₂) := by
    rw [Prog.run_bind_ok hrun, Prog.run_perform_ok hcommit]
    rfl
  refine ⟨ps, s₃, ⟨s₁, hattempts, ?_⟩, ?_⟩
  · unfold deliverBatch Db.withSession
    rw [Prog.run_bind_ok (Prog.run_tryExcept_ok hbody), Prog.run_perform_ok hrollback]
    rfl
  · have halone : ∀ jr ∈ s₁.world.uncommitted, jr.1 = 0 :=
      hstepped.alone (by simp [huncommitted])
    have hdrop : s₁.world.dropRows 0 = [] := by
      simpa [World.dropRows, List.filter_eq_nil_iff] using halone
    have hown : s.world.ownRows 0 = [] := by simp [World.ownRows, huncommitted]
    have haborted₁ : s₁.world.aborted 0 = ps.any fun p => rejected py judge p.delivery := by
      rw [hstepped.aborted, haborted, Bool.false_or]
    have hevents : s₃.world.events =
        if s₁.world.aborted 0 then s₁.world.events else s₁.world.events ++ s₁.world.ownRows 0 := by
      simp only [hs₃, hs₂]
      rfl
    have hadditions : s₃.additions = s₁.additions := by simp [hs₃, hs₂]
    refine ⟨?_, ?_, hstepped.validity, fun hspoilt => ?_, fun hclean => ?_, fun hstored => ?_⟩
    · simp [hs₃, hs₂, World.rollbackTx, World.commitTx, World.dropRows, Clocked.tick] at halone ⊢
      exact fun i row h => halone i row h
    · simp [hs₃, World.rollbackTx]
    · rw [hevents, haborted₁, hspoilt, if_pos rfl, hstepped.events]
    · rw [hclean] at haborted₁
      obtain ⟨hvalid, hseen, rows, more, hrows, hmore, hcounted⟩ := hstepped.clean haborted₁
      have hafter : s₃.world.events = s.world.events ++ rows := by
        rw [hevents, haborted₁, hstepped.events, hrows, hown]
        rfl
      refine ⟨hvalid, ?_, rows, more, hafter, hadditions.trans hmore, hcounted⟩
      have hbefore : seen s.world = s.world.events.map EventRow.untimed := by
        rw [seen, hown, List.append_nil]
      rw [← hbefore, ← hseen, hafter, seen, hstepped.events, hrows, hown, List.nil_append]
    · obtain ⟨hown₁, hmore⟩ := hstepped.idle hstored hown
      refine ⟨?_, hadditions.trans hmore⟩
      rw [hevents, hown₁, hstepped.events, List.append_nil, ite_self]

end Deliver

/-- A session of the worker: the time that passes before each of its commands, and the
deliveries that it handles. -/
abbrev Batch := (Nat → Nat) × List Delivery

/-- `Handed s batches past s'`: from `s` on, the batches have been delivered one after
the other, in the attempts `past`. -/
inductive Handed (py : Python) (settings : Settings) (judge : EventRow → Choice) (s : Clocked) :
    List Batch → List Attempt → Clocked → Prop
  | nil : Handed py settings judge s [] [] s
  | snoc {batches : List Batch} {past ps : List Attempt} {s₁ s₂ : Clocked} (batch : Batch)
      (hbefore : Handed py settings judge s batches past s₁)
      (hrun : Processed py settings judge { s₁ with delays := batch.1 } batch.2 ps s₂) :
      Handed py settings judge s (batches ++ [batch]) (past ++ ps) s₂

/-- Each event that was delivered validly is stored once, as it was in its first valid
delivery, and counted once; and what has been delivered may be delivered again. -/
structure Once (py : Python) (settings : Settings) (judge : EventRow → Choice)
    (past : List Attempt) (s : Clocked) : Prop where
  nodup : (s.world.events.map EventRow.eventId).Nodup
  stored : ∀ p ∈ past, valid p.outcome = true →
    ∃ row, decodedRow py p.delivery.2 = some row ∧ s.world.stored row.eventId = true
  first : ∀ row ∈ s.world.events, ∃ before p after, past = before ++ p :: after ∧
    valid p.outcome = true ∧ decodedRow py p.delivery.2 = some row.untimed ∧
    ∀ q ∈ before, valid q.outcome = true → ∀ row', decodedRow py q.delivery.2 = some row' →
      row'.eventId ≠ row.eventId
  counted : Additions py past s.additions s.world.events
  settled : ∀ batches : List Batch,
    (∀ batch ∈ batches, ∀ d ∈ batch.2, ∃ p ∈ past, p.delivery.2 = d.2) →
      ∃ past' s', Handed py settings judge s batches past' s' ∧
        s'.world.events = s.world.events ∧ s'.additions = s.additions

/-- When the server rejects a row of the batch, all its events are stored already. -/
def Spared (py : Python) (judge : EventRow → Choice) (work : List Delivery) (w : World) : Prop :=
  work.any (rejected py judge) = true →
    ∀ d ∈ work, ∀ row, accepted py judge d = some row → w.stored row.eventId = true

section History

variable {py : Python} {settings : Settings} {judge : EventRow → Choice} {s s' : Clocked}
  {past ps : List Attempt} {batches : List Batch} {work : List Delivery}

def validRows (py : Python) (past : List Attempt) : List EventRow :=
  past.filterMap fun p => if valid p.outcome then decodedRow py p.delivery.2 else none

theorem decodedRow_of_accepted {d : Delivery} {row : EventRow}
    (h : accepted py judge d = some row) : decodedRow py d.2 = some row :=
  (Option.filter_eq_some_iff.mp h).1

theorem rejected_of_accepted {d : Delivery} {row : EventRow}
    (h : accepted py judge d = some row) : rejected py judge d = false := by
  obtain ⟨hrow, hok⟩ := Option.filter_eq_some_iff.mp h
  have hok : judge row = .ok := of_decide_eq_true hok
  simp [rejected, hrow, hok]

theorem validRows_eq
    (h : ∀ p ∈ ps, valid p.outcome = (accepted py judge p.delivery).isSome) :
    validRows py ps = ps.filterMap fun p => accepted py judge p.delivery := by
  refine List.filterMap_congr fun p hp => ?_
  rw [h p hp]
  cases haccepted : accepted py judge p.delivery with
  | none => rfl
  | some row => exact decodedRow_of_accepted haccepted

theorem Processed.deliveries (h : Processed py settings judge s work ps s') :
    ps.map Attempt.delivery = work := by
  obtain ⟨s₁, hattempts, -⟩ := h
  exact (run_deliverAll hattempts).2

theorem Processed.any (h : Processed py settings judge s work ps s')
    (f : Delivery → Bool) : work.any f = ps.any fun p => f p.delivery := by
  rw [← h.deliveries, List.any_map]
  rfl

theorem Processed.unique {ps' : List Attempt} {s'' : Clocked}
    (h : Processed py settings judge s work ps s')
    (h' : Processed py settings judge s work ps' s'') : ps = ps' ∧ s' = s'' := by
  obtain ⟨s₁, hattempts, hrun⟩ := h
  obtain ⟨s₂, hattempts', hrun'⟩ := h'
  cases hattempts.symm.trans hattempts'
  cases hrun.symm.trans hrun'
  exact ⟨rfl, rfl⟩

/-- What holds after every batch of a run whose batches are all spared. -/
structure Ledger (py : Python) (judge : EventRow → Choice) (past : List Attempt)
    (s : Clocked) : Prop where
  uncommitted : s.world.uncommitted = []
  aborted : s.world.aborted 0 = false
  validity : ∀ p ∈ past, valid p.outcome = true → (accepted py judge p.delivery).isSome = true
  table : s.world.events.map EventRow.untimed =
    absorb EventRow.eventId [] (validRows py past)
  known : ∀ p ∈ past, ∀ row, accepted py judge p.delivery = some row →
    s.world.stored row.eventId = true
  counted : Additions py past s.additions s.world.events

theorem stored_iff_untimed {w : World} {e : UUID} :
    w.stored e = true ↔ e ∈ (w.events.map EventRow.untimed).map EventRow.eventId := by
  simp [World.stored, EventRow.untimed]

theorem Spared.attempts {w : World} (h : Spared py judge work w)
    (hprocessed : Processed py settings judge s work ps s')
    (hany : (ps.any fun p => rejected py judge p.delivery) = true) :
    ∀ p ∈ ps, ∀ row, accepted py judge p.delivery = some row → w.stored row.eventId = true := by
  intro p hp row hrow
  refine h ((hprocessed.any _).trans hany) p.delivery ?_ row hrow
  rw [← hprocessed.deliveries]
  exact List.mem_map_of_mem hp

theorem Ledger.settles (h : Ledger py judge past s) (hsettles : Settles py judge s ps s')
    (hspared : (ps.any fun p => rejected py judge p.delivery) = true →
      ∀ p ∈ ps, ∀ row, accepted py judge p.delivery = some row →
        s.world.stored row.eventId = true) :
    Ledger py judge (past ++ ps) s' := by
  have hvalidity : ∀ p ∈ past ++ ps, valid p.outcome = true →
      (accepted py judge p.delivery).isSome = true :=
    List.forall_mem_append.mpr ⟨h.validity, hsettles.validity⟩
  have hrows : validRows py (past ++ ps) = validRows py past ++ validRows py ps :=
    List.filterMap_append
  cases hany : ps.any fun p => rejected py judge p.delivery with
  | true =>
      have hstored := hspared hany
      obtain ⟨hevents, hadditions⟩ := hsettles.idle hstored
      have hsame : ∀ e, s'.world.stored e = s.world.stored e := by simp [World.stored, hevents]
      refine ⟨hsettles.uncommitted, hsettles.aborted, hvalidity, ?_, fun p hp row hrow => ?_, ?_⟩
      · rw [hrows, absorb_append, ← h.table, hevents, absorb_of_known fun row hrow => ?_]
        obtain ⟨p, hp, hvalid⟩ := List.mem_filterMap.mp hrow
        split at hvalid
        · rename_i hout
          obtain ⟨row', haccepted⟩ := Option.isSome_iff_exists.mp (hsettles.validity p hp hout)
          cases (decodedRow_of_accepted haccepted).symm.trans hvalid
          exact stored_iff_untimed.mp (hstored p hp _ haccepted)
        · cases hvalid
      · rw [hsame]
        rcases List.mem_append.mp hp with hp | hp
        · exact h.known p hp row hrow
        · exact hstored p hp row hrow
      · rw [hevents, hadditions]
        exact h.counted.mono (List.subset_append_left _ _)
  | false =>
      obtain ⟨hvalid, htable, new, more, hevents, hadditions, hcounted⟩ := hsettles.clean hany
      refine ⟨hsettles.uncommitted, hsettles.aborted, hvalidity, ?_, fun p hp row hrow => ?_, ?_⟩
      · rw [hrows, absorb_append, ← h.table, htable, validRows_eq hvalid]
      · rw [stored_iff_untimed, htable, mem_keys_absorb]
        rcases List.mem_append.mp hp with hp | hp
        · exact .inl (stored_iff_untimed.mp (h.known p hp row hrow))
        · exact .inr (List.mem_map_of_mem (List.mem_filterMap.mpr ⟨p, hp, hrow⟩))
      · rw [hevents, hadditions]
        exact h.counted.append hcounted

theorem Handed.one (batch : Batch)
    (hrun : Processed py settings judge { s with delays := batch.1 } batch.2 ps s') :
    Handed py settings judge s [batch] ps s' := by
  have h := Handed.snoc batch .nil hrun
  exact h

theorem Handed.snoc_inv {batch : Batch} {past' : List Attempt}
    (h : Handed py settings judge s (batches ++ [batch]) past' s') :
    ∃ past s₁ ps, Handed py settings judge s batches past s₁ ∧
      Processed py settings judge { s₁ with delays := batch.1 } batch.2 ps s' ∧
      past' = past ++ ps := by
  generalize hall : batches ++ [batch] = all at h
  cases h with
  | nil => simp at hall
  | snoc batch' hbefore hrun =>
      obtain ⟨rfl, hbatch⟩ := List.append_inj' hall rfl
      cases hbatch
      exact ⟨_, _, _, hbefore, hrun, rfl⟩

theorem Handed.unique {past₁ past₂ : List Attempt} {s₁ s₂ : Clocked}
    (h₁ : Handed py settings judge s batches past₁ s₁)
    (h₂ : Handed py settings judge s batches past₂ s₂) : past₁ = past₂ ∧ s₁ = s₂ := by
  induction h₁ generalizing past₂ s₂ with
  | nil =>
      generalize hall : ([] : List Batch) = all at h₂
      cases h₂ with
      | nil => exact ⟨rfl, rfl⟩
      | snoc batch _ _ => simp at hall
  | snoc batch _ hrun ih =>
      obtain ⟨past, s, ps, hbefore, hrun', rfl⟩ := h₂.snoc_inv
      obtain ⟨rfl, rfl⟩ := ih hbefore
      obtain ⟨rfl, rfl⟩ := hrun.unique hrun'
      exact ⟨rfl, rfl⟩

/-- Deliveries of stored events, however many and in whatever order, change nothing. -/
theorem handed_of_stored (httl : settings.idemTtlSeconds ≠ 0)
    (huncommitted : s.world.uncommitted = []) (haborted : s.world.aborted 0 = false)
    (hstored : ∀ batch ∈ batches, ∀ d ∈ batch.2, ∀ row, accepted py judge d = some row →
      s.world.stored row.eventId = true) :
    ∃ past' s', Handed py settings judge s batches past' s' ∧ s'.world.events = s.world.events ∧
      s'.additions = s.additions ∧ s'.world.uncommitted = [] ∧ s'.world.aborted 0 = false := by
  induction batches using List.reverseRecOn with
  | nil => exact ⟨[], s, .nil, rfl, rfl, huncommitted, haborted⟩
  | append_singleton batches batch ih =>
      obtain ⟨past', s₁, hhanded, hevents, hadditions, huncommitted₁, haborted₁⟩ :=
        ih fun b hb => hstored b (List.mem_append_left _ hb)
      obtain ⟨ps, s₂, hrun, hsettles⟩ := run_deliverBatch py judge
        (s := { s₁ with delays := batch.1 }) httl huncommitted₁ haborted₁ batch.2
      obtain ⟨hevents₂, hadditions₂⟩ := hsettles.idle fun p hp row hrow => by
        rw [World.stored, hevents]
        refine hstored batch (by simp) p.delivery ?_ row hrow
        rw [← hrun.deliveries]
        exact List.mem_map_of_mem hp
      exact ⟨_, s₂, .snoc batch hhanded hrun, hevents₂.trans hevents, hadditions₂.trans hadditions,
        hsettles.uncommitted, hsettles.aborted⟩

theorem Ledger.once (httl : settings.idemTtlSeconds ≠ 0) (h : Ledger py judge past s) :
    Once py settings judge past s := by
  refine ⟨?_, fun p hp hvalid => ?_, fun row hrow => ?_, h.counted, fun batches hpast => ?_⟩
  · have hids : s.world.events.map EventRow.eventId =
        (s.world.events.map EventRow.untimed).map EventRow.eventId := by
      simp [EventRow.untimed, Function.comp_def]
    rw [hids, h.table]
    exact nodup_absorb (by simp) _
  · obtain ⟨row, haccepted⟩ := Option.isSome_iff_exists.mp (h.validity p hp hvalid)
    exact ⟨row, decodedRow_of_accepted haccepted, h.known p hp row haccepted⟩
  · have hmem : row.untimed ∈ s.world.events.map EventRow.untimed := List.mem_map_of_mem hrow
    rw [h.table] at hmem
    obtain ⟨-, before, after, hsplit, hfirst⟩ := (mem_absorb hmem).resolve_left List.not_mem_nil
    obtain ⟨left, right, rfl, hleft, hright⟩ := List.filterMap_eq_append_iff.mp hsplit
    obtain ⟨skipped, p, rest, rfl, hskipped, hp, -⟩ := List.filterMap_eq_cons_iff.mp hright
    split at hp
    · rename_i hvalid
      refine ⟨left ++ skipped, p, rest, by rw [List.append_assoc], hvalid, hp, ?_⟩
      intro q hq hqvalid row' hrow' hid
      rcases List.mem_append.mp hq with hq | hq
      · refine hfirst (List.mem_map.mpr ⟨row', ?_, hid⟩)
        rw [← hleft]
        exact List.mem_filterMap.mpr ⟨q, hq, by rw [if_pos hqvalid]; exact hrow'⟩
      · have hnone := hskipped q hq
        rw [if_pos hqvalid, hrow'] at hnone
        cases hnone
    · cases hp
  · obtain ⟨past', s', hhanded, hevents, hadditions, -, -⟩ :=
      handed_of_stored httl h.uncommitted h.aborted
        fun batch hbatch d hd row hrow => by
          obtain ⟨p, hp, hdata⟩ := hpast batch hbatch d hd
          refine h.known p hp row ?_
          rw [accepted, hdata]
          exact hrow
    exact ⟨past', s', hhanded, hevents, hadditions⟩

/-- A batch that is not spared loses an event: it was valid and is not stored, or it was
refused and is stored when it is delivered again. -/
theorem Settles.spared (httl : settings.idemTtlSeconds ≠ 0) (hsettles : Settles py judge s ps s')
    (hprocessed : Processed py settings judge s work ps s')
    (honce : Once py settings judge (past ++ ps) s') : Spared py judge work s.world := by
  intro hany d hd row hrow
  have hsame : s'.world.stored row.eventId = s.world.stored row.eventId := by
    rw [World.stored, hsettles.spoilt ((hprocessed.any _).symm.trans hany), World.stored]
  rw [← hsame]
  rw [← hprocessed.deliveries] at hd
  obtain ⟨p, hp, rfl⟩ := List.mem_map.mp hd
  have hmem : p ∈ past ++ ps := List.mem_append_right _ hp
  cases hvalid : valid p.outcome with
  | true =>
      obtain ⟨row', hrow', hstored⟩ := honce.stored p hmem hvalid
      cases (decodedRow_of_accepted hrow).symm.trans hrow'
      exact hstored
  | false =>
      obtain ⟨past', s₂, hhanded, hevents, -⟩ := honce.settled [(fun _ => 0, [p.delivery])]
        fun batch hbatch d' hd' => by
          rw [List.mem_singleton.mp hbatch] at hd'
          exact ⟨p, hmem, by rw [List.mem_singleton.mp hd']⟩
      obtain ⟨ps', s₃, hrun, hagain⟩ := run_deliverBatch py judge
        (s := { s' with delays := fun _ => 0 }) httl hsettles.uncommitted hsettles.aborted
        [p.delivery]
      obtain ⟨-, rfl⟩ := hhanded.unique (.one (fun _ => 0, [p.delivery]) hrun)
      have hclean : (ps'.any fun p => rejected py judge p.delivery) = false := by
        rw [← hrun.any]
        simp [rejected_of_accepted hrow]
      obtain ⟨q, hq, hqp⟩ : ∃ q ∈ ps', q.delivery = p.delivery := by
        have hmem : p.delivery ∈ ps'.map Attempt.delivery := by simp [hrun.deliveries]
        exact List.mem_map.mp hmem
      obtain ⟨-, htable, -⟩ := hagain.clean hclean
      rw [hevents] at htable
      rw [stored_iff_untimed, htable, mem_keys_absorb]
      exact .inr (List.mem_map_of_mem (List.mem_filterMap.mpr ⟨q, hq, hqp ▸ hrow⟩))

end History

def idleWorker (clock : Nat) : Clocked := ⟨World.init clock, [], fun _ => 0⟩

theorem ledger_idleWorker (py : Python) (judge : EventRow → Choice) (clock : Nat) :
    Ledger py judge [] (idleWorker clock) := by
  refine ⟨rfl, rfl, by simp, rfl, by simp, .nil⟩

/-- Delivery is effectively once after every batch if and only if every batch is spared. -/
theorem once_iff_spared (py : Python) {settings : Settings} (judge : EventRow → Choice)
    (httl : settings.idemTtlSeconds ≠ 0) (clock : Nat) (batches : List Batch) :
    (∀ taken, taken <+: batches → ∃ past s,
        Handed py settings judge (idleWorker clock) taken past s ∧ Once py settings judge past s) ↔
      ∀ taken batch, taken ++ [batch] <+: batches → ∃ past s,
        Handed py settings judge (idleWorker clock) taken past s ∧
          Spared py judge batch.2 s.world := by
  have hkeeps : ∀ (taken : List Batch), (∀ before batch, before ++ [batch] <+: taken → ∃ past s,
      Handed py settings judge (idleWorker clock) before past s ∧
        Spared py judge batch.2 s.world) → ∃ past s,
      Handed py settings judge (idleWorker clock) taken past s ∧ Ledger py judge past s := by
    intro taken
    induction taken using List.reverseRecOn with
    | nil => exact fun _ => ⟨[], _, .nil, ledger_idleWorker py judge clock⟩
    | append_singleton taken batch ih =>
        intro hspared
        obtain ⟨past, s, hhanded, hledger⟩ := ih fun before b hb =>
          hspared before b (hb.trans (List.prefix_append _ _))
        obtain ⟨past', s', hhanded', hbatch⟩ := hspared taken batch (List.prefix_refl _)
        obtain ⟨rfl, rfl⟩ := hhanded.unique hhanded'
        obtain ⟨ps, s₂, hrun, hsettles⟩ := run_deliverBatch py judge
          (s := { s with delays := batch.1 }) httl hledger.uncommitted hledger.aborted batch.2
        have hdelayed : Ledger py judge past { s with delays := batch.1 } :=
          ⟨hledger.uncommitted, hledger.aborted, hledger.validity, hledger.table, hledger.known,
            hledger.counted⟩
        exact ⟨_, s₂, .snoc batch hhanded hrun, hdelayed.settles hsettles (hbatch.attempts hrun)⟩
  constructor
  · intro honce
    induction batches using List.reverseRecOn with
    | nil => exact fun taken batch hbatch => absurd (List.prefix_nil.mp hbatch) (by simp)
    | append_singleton batches last ih =>
        have hbefore := ih fun taken htaken => honce taken (htaken.trans (List.prefix_append _ _))
        intro taken batch hbatch
        rcases List.prefix_concat_iff.mp hbatch with hlast | hearlier
        · obtain ⟨hbatches, hbatch⟩ := List.append_inj' hlast rfl
          obtain rfl := List.singleton_inj.mp hbatch
          subst hbatches
          obtain ⟨past, s, hhanded, hledger⟩ := hkeeps taken hbefore
          obtain ⟨ps, s₂, hrun, hsettles⟩ := run_deliverBatch py judge
            (s := { s with delays := batch.1 }) httl hledger.uncommitted hledger.aborted batch.2
          obtain ⟨past', s₃, hhanded', honce'⟩ := honce _ (List.prefix_refl _)
          obtain ⟨rfl, rfl⟩ := (Handed.snoc batch hhanded hrun).unique hhanded'
          have hspared := hsettles.spared httl hrun honce'
          exact ⟨past, s, hhanded, hspared⟩
        · exact hbefore taken batch hearlier
  · intro hspared taken htaken
    obtain ⟨past, s, hhanded, hledger⟩ := hkeeps taken fun before batch hbatch =>
      hspared before batch (hbatch.trans htaken)
    exact ⟨past, s, hhanded, hledger.once httl⟩

/-- Batches are handled to their end, whatever they contain. -/
theorem handed_total (py : Python) {settings : Settings} (judge : EventRow → Choice)
    (httl : settings.idemTtlSeconds ≠ 0) (clock : Nat) (batches : List Batch) :
    ∃ past s, Handed py settings judge (idleWorker clock) batches past s ∧
      s.world.uncommitted = [] ∧ s.world.aborted 0 = false := by
  induction batches using List.reverseRecOn with
  | nil => exact ⟨[], _, .nil, rfl, rfl⟩
  | append_singleton batches batch ih =>
      obtain ⟨past, s, hhanded, huncommitted, haborted⟩ := ih
      obtain ⟨ps, s₂, hrun, hsettles⟩ := run_deliverBatch py judge
        (s := { s with delays := batch.1 }) httl huncommitted haborted batch.2
      exact ⟨_, s₂, .snoc batch hhanded hrun, hsettles.uncommitted, hsettles.aborted⟩

def dataOf (py : Python) (text : String) : Dict :=
  match py.loads text with
  | .ok (.obj data) => data
  | _ => []

def rejectNul (row : EventRow) : Choice :=
  if noNul row then .ok else .raiseAfter

/-- An event and a row that the server rejects, in one session: the event was inserted
and counted, and is gone after the commit. -/
theorem lost_with_rejected_row :
    ¬ ∀ py settings judge, settings.idemTtlSeconds ≠ 0 → ∀ clock batches past s,
      Handed py settings judge (idleWorker clock) batches past s →
        Once py settings judge past s := by
  intro h
  have httl : ({} : Settings).idemTtlSeconds ≠ 0 := by decide
  obtain ⟨ps, s, hrun, hsettles⟩ := run_deliverBatch mixedBatch rejectNul httl
    (s := idleWorker 0) rfl rfl
    [(0, dataOf mixedBatch goodText), (1, dataOf mixedBatch badText)]
  have honce : Once mixedBatch {} rejectNul ([] ++ ps) s :=
    h mixedBatch {} rejectNul httl 0 [(fun _ => 0, _)] _ s (.one (fun _ => 0, _) hrun)
  have hgood : (accepted mixedBatch rejectNul (0, dataOf mixedBatch goodText)).isSome = true := by
    decide +kernel
  obtain ⟨row, hrow⟩ := Option.isSome_iff_exists.mp hgood
  have hstored := hsettles.spared httl hrun honce (by decide +kernel) _ List.mem_cons_self row hrow
  cases hstored

theorem once_iff_spared_redelivered :
    ∃ past s, Handed mixedBatch {} rejectNul (idleWorker 0)
        [((fun _ => 0 : Nat → Nat), [(0, dataOf mixedBatch goodText),
          (0, dataOf mixedBatch goodText)]), (fun _ => 60000, [(0, dataOf mixedBatch goodText)])]
        past s ∧ Once mixedBatch {} rejectNul past s := by
  have httl : ({} : Settings).idemTtlSeconds ≠ 0 := by decide
  refine (once_iff_spared mixedBatch rejectNul httl 0 _).mpr (fun taken batch hbatch => ?_) _
    (List.prefix_refl _)
  obtain ⟨past, s, hhanded, -⟩ := handed_total mixedBatch rejectNul httl 0 taken
  refine ⟨past, s, hhanded, fun hany => ?_⟩
  obtain ⟨d, hd, hrejected⟩ := List.any_eq_true.mp hany
  have hgood : d = (0, dataOf mixedBatch goodText) := by
    have hmem : batch ∈ taken ++ [batch] := by simp
    have hbatch := hbatch.subset hmem
    simp only [List.mem_cons, List.not_mem_nil, or_false] at hbatch
    rcases hbatch with rfl | rfl <;> simpa using hd
  subst hgood
  exact absurd hrejected (by decide +kernel)

end EventAnalytics.Workers
