import EventAnalytics.Workers.Poison
import EventAnalytics.Workers.Reclaim

/-! One pass that nothing interferes with, over any batch: which messages it
acknowledges, which it dead-letters, and what can keep it from its end. -/
namespace EventAnalytics.Workers

open Library Redis

/-- Redis is available, and PostgreSQL answers an `INSERT` by its row: `raiseBefore`
is a value that the driver cannot encode, `raiseAfter` one that the server rejects. -/
def verdict (judge : EventRow → Choice) : Cmd → Choice
  | .insertEvent row _ => judge row.untimed
  | _ => .ok

def answered (judge : EventRow → Choice) (w : World) (c : Cmd) :
    Option (Except Exn c.Resp × World) :=
  backend.exec 0 (verdict judge c) w c

/-- The entry holds an event that the database accepts. -/
def holdsEvent (py : Python) (judge : EventRow → Choice) (fields : Entry) : Bool :=
  match rowOf py fields with
  | some make => judge (make 0) = .ok
  | none => false

/-- The server rejects the row of the entry. -/
def spoils (py : Python) (judge : EventRow → Choice) (fields : Entry) : Bool :=
  match rowOf py fields with
  | some make => judge (make 0) = .raiseAfter
  | none => false

/-- An entry in the hands of the worker, with the delivery count that it goes by. -/
structure Parcel where
  id : Nat
  fields : Entry
  deliveryCount : Nat

def Parcel.message (py : Python) (m : Parcel) : Nat × Json × Nat :=
  (m.id, (Mq.parseFields py m.fields).toOption.getD .null, m.deliveryCount)

/-- The parcels that a loop acknowledges and those that it does not, when it starts in
a transaction that is aborted or not. -/
def sortOut (py : Python) (judge : EventRow → Choice) :
    Bool → List Parcel → List Parcel × List Parcel
  | _, [] => ([], [])
  | aborted, m :: parcels =>
    let rest := sortOut py judge (aborted || spoils py judge m.fields) parcels
    if holdsEvent py judge m.fields && !aborted then (m :: rest.1, rest.2)
    else (rest.1, m :: rest.2)

end EventAnalytics.Workers

namespace EventAnalytics

def World.letter (w : World) (d : DeadLetter) : World :=
  { w with
    dlq := w.dlq ++ [d]
    stream := (w.stream.xack [d.originalId]).xdel d.originalId }

end EventAnalytics

namespace EventAnalytics.Workers

open Library Redis

section Turn

variable {py : Python} {settings : Settings} {judge : EventRow → Choice} {w : World}
  {acc : Progress}

theorem run_deadLetterIfDue (py : Python) (settings : Settings) (judge : EventRow → Choice)
    (w : World) (acc : Progress) (id n : Nat) (data : Dict) (reason : String) :
    ∃ acc' d, acc'.idsToAck = acc.idsToAck ∧ d.originalId = id ∧
      (deadLetterIfDue py settings id data n reason acc).run (answered judge) w =
        some (.ok acc', if settings.eventMaxDeliveries ≤ n then w.letter d else w) := by
  unfold deadLetterIfDue
  split
  · refine ⟨{ acc with dead := acc.dead + 1 }, ⟨id, reason, n, py.dumps (.obj data)⟩, rfl, rfl, ?_⟩
    have hletter : (Mq.deadLetter py id (.obj data) reason n).run (answered judge) w =
        some (.ok (), w.letter ⟨id, reason, n, py.dumps (.obj data)⟩) := rfl
    rw [Prog.run_bind_ok hletter]
    rfl
  · exact ⟨acc, ⟨id, reason, n, ""⟩, rfl, rfl, rfl⟩

theorem run_countUser (judge : EventRow → Choice) (w : World) (inserted : Bool) (row : EventRow) :
    ∃ w', (countUser inserted row).run (answered judge) w = some (.ok (), w') ∧
      w.SameLedger w' := by
  unfold countUser
  split
  · exact ⟨_, rfl, ⟨rfl, rfl, rfl, rfl, rfl⟩⟩
  · exact ⟨w, rfl, .refl w⟩

/-- What the worker has of an accepted row: it is stored, or inserted by its transaction. -/
structure Kept (w : World) (e : UUID) (w' : World) : Prop where
  stream : w'.stream = w.stream
  dlq : w'.dlq = w.dlq
  events : w'.events = w.events
  aborted : w'.aborted = w.aborted
  alone : (∀ jr ∈ w.uncommitted, jr.1 = 0) → ∀ jr ∈ w'.uncommitted, jr.1 = 0
  owned : ∀ e', w.ownsRow 0 e' = true → w'.ownsRow 0 e' = true
  kept : w.stored e = true ∨ w'.ownsRow 0 e = true

/-- The session sees a row of the event. -/
def sees (w : World) (e : UUID) : Bool := w.stored e || w.ownsRow 0 e

/-- The world with the row that an `INSERT ... ON CONFLICT DO NOTHING` has added, if any. -/
def withRow (w : World) (inserted : Bool) (row : EventRow) : World :=
  { w with uncommitted := w.uncommitted ++ if inserted then [(0, row)] else [] }

theorem heldByOther_eq_false (halone : ∀ jr ∈ w.uncommitted, jr.1 = 0) (e : UUID) :
    w.heldByOther 0 e = false := by
  simp only [World.heldByOther, List.any_eq_false, decide_eq_true_eq, not_and]
  exact fun jr hjr hne => absurd (halone jr hjr) hne

theorem answered_insertEvent (row : EventRow) (hjudge : judge row.untimed = .ok)
    (haborted : w.aborted 0 = false) (halone : ∀ jr ∈ w.uncommitted, jr.1 = 0)
    (origin : Origin) :
    answered judge w (.insertEvent row origin) =
      some (.ok !sees w row.eventId, withRow w (!sees w row.eventId) row) := by
  have hfree := heldByOther_eq_false halone row.eventId
  simp only [answered, verdict, hjudge, backend, effect, haborted, hfree, Bool.false_eq_true,
    if_false]
  unfold withRow sees
  cases w.stored row.eventId || w.ownsRow 0 row.eventId with
  | true => simp
  | false => rfl

theorem answered_setDone (httl : settings.idemTtlSeconds ≠ 0) (e : UUID) :
    answered judge w (.setDone e settings.idemTtlSeconds) =
      some (.ok (), w.setKey e .done settings.idemTtlSeconds) := by
  simp [answered, verdict, backend, effect, httl]

theorem kept_withRow (row : EventRow) :
    Kept w row.eventId (withRow w (!sees w row.eventId) row) where
  stream := rfl
  dlq := rfl
  events := rfl
  aborted := rfl
  alone := by
    intro halone jr hjr
    rcases List.mem_append.mp hjr with hjr | hjr
    · exact halone jr hjr
    · split at hjr
      · rw [List.mem_singleton.mp hjr]
      · cases hjr
  owned := by
    intro e howned
    simp only [World.ownsRow, withRow, List.any_append, Bool.or_eq_true]
    exact .inl howned
  kept := by
    cases hsees : sees w row.eventId with
    | true =>
        rw [sees, Bool.or_eq_true] at hsees
        refine hsees.imp_right fun howned => ?_
        simp only [World.ownsRow, withRow, List.any_append, Bool.or_eq_true]
        exact .inl howned
    | false => exact .inr (by simp [World.ownsRow, withRow])

theorem run_persistRow_ok (httl : settings.idemTtlSeconds ≠ 0) {make : Nat → EventRow}
    {row : EventRow} (hmake : ∀ serverTs, make serverTs = { row with serverTs := serverTs })
    (hjudge : judge (make 0) = .ok) (haborted : w.aborted 0 = false)
    (halone : ∀ jr ∈ w.uncommitted, jr.1 = 0) (origin : Origin) :
    ∃ persisted w', (persistRow settings origin make).run (answered judge) w =
        some (.ok persisted, w') ∧ persisted ≠ .invalid ∧ Kept w row.eventId w' := by
  have huntimed : (make w.clock).untimed = make 0 := untimed_make hmake w.clock
  have hid : (make w.clock).eventId = row.eventId := by rw [hmake]
  have hinsert := answered_insertEvent (make w.clock) (huntimed ▸ hjudge) haborted halone origin
  have hkept := kept_withRow (w := w) (make w.clock)
  rw [hid] at hinsert hkept
  obtain ⟨w₂, hcount, hledger⟩ := run_countUser judge
    (withRow w (!sees w row.eventId) (make w.clock)) (!sees w row.eventId) (make w.clock)
  refine ⟨if !sees w row.eventId then .inserted else .conflict,
    w₂.setKey (make w.clock).eventId .done settings.idemTtlSeconds, ?_, ?_, ?_⟩
  · unfold persistRow
    rw [Prog.run_perform_ok (show answered judge w .now = some (.ok w.clock, w) from rfl),
      Prog.run_perform_ok hinsert, Prog.run_bind_ok hcount,
      Prog.run_perform_ok (answered_setDone httl _)]
    rfl
  · split <;> simp
  · refine ⟨hledger.stream.trans hkept.stream, hledger.dlq.trans hkept.dlq,
      hledger.events.trans hkept.events, hledger.aborted.trans hkept.aborted, ?_, ?_, ?_⟩
    · simpa [World.setKey, hledger.uncommitted] using hkept.alone
    · simpa [World.setKey, World.ownsRow, hledger.uncommitted] using hkept.owned
    · simpa [World.setKey, World.ownsRow, hledger.uncommitted] using hkept.kept

theorem run_persistRow_error (settings : Settings) {make : Nat → EventRow} {row : EventRow}
    (hmake : ∀ serverTs, make serverTs = { row with serverTs := serverTs })
    (hrefused : judge (make 0) ≠ .ok ∨ w.aborted 0 = true) (origin : Origin) :
    (persistRow settings origin make).run (answered judge) w =
      some (.error .dbApiError, if judge (make 0) = .raiseAfter then w.abortTx 0 else w) := by
  have huntimed : (make w.clock).untimed = make 0 := untimed_make hmake w.clock
  have hinsert : answered judge w (.insertEvent (make w.clock) origin) =
      some (.error .dbApiError, if judge (make 0) = .raiseAfter then w.abortTx 0 else w) := by
    simp only [answered, verdict, huntimed]
    cases hjudge : judge (make 0) with
    | ok =>
        have haborted : w.aborted 0 = true := hrefused.resolve_left (by simp [hjudge])
        simp [backend, effect, haborted]
    | raiseBefore => rfl
    | raiseAfter => rfl
  unfold persistRow
  rw [Prog.run_perform_ok (show answered judge w .now = some (.ok w.clock, w) from rfl)]
  exact Prog.run_perform_error hinsert

theorem holdsEvent_of_spoils {fields : Entry} (h : spoils py judge fields = true) :
    holdsEvent py judge fields = false := by
  unfold spoils at h
  unfold holdsEvent
  split at h
  · simp_all
  · cases h

/-- What a stretch of the loop does to the world and to what the loop carries. -/
structure Turned (py : Python) (settings : Settings) (judge : EventRow → Choice)
    (parcels : List Parcel) (w : World) (acc : Progress) (w' : World) (acc' : Progress) :
    Prop where
  acks : acc'.idsToAck =
    acc.idsToAck ++ (sortOut py judge (w.aborted 0) parcels).1.map Parcel.id
  letters : ∃ letters, w'.dlq = w.dlq ++ letters ∧ letters.map DeadLetter.originalId =
    ((sortOut py judge (w.aborted 0) parcels).2.filter fun m =>
      settings.eventMaxDeliveries ≤ m.deliveryCount).map Parcel.id
  pel : ∀ p, p ∈ w'.stream.pel ↔ p ∈ w.stream.pel ∧
    ∀ m ∈ (sortOut py judge (w.aborted 0) parcels).2,
      settings.eventMaxDeliveries ≤ m.deliveryCount → p.id ≠ m.id
  added : w'.stream.added = w.stream.added
  events : w'.events = w.events
  aborted : w'.aborted 0 = (w.aborted 0 || parcels.any fun m => spoils py judge m.fields)
  alone : (∀ jr ∈ w.uncommitted, jr.1 = 0) → ∀ jr ∈ w'.uncommitted, jr.1 = 0
  owned : w'.aborted 0 = false → ∀ e, w.ownsRow 0 e = true → w'.ownsRow 0 e = true
  kept : w'.aborted 0 = false → ∀ m ∈ (sortOut py judge (w.aborted 0) parcels).1,
    ∀ e, eventIdOf py m.fields = some e → w.stored e = true ∨ w'.ownsRow 0 e = true

theorem Turned.done {m : Parcel} {e : UUID} {w' : World} {acc' : Progress}
    (hholds : holdsEvent py judge m.fields = true) (haborted : w.aborted 0 = false)
    (hid : eventIdOf py m.fields = some e) (hkept : Kept w e w')
    (hacks : acc'.idsToAck = acc.idsToAck ++ [m.id]) :
    Turned py settings judge [m] w acc w' acc' := by
  have hspoils : spoils py judge m.fields = false := by
    by_contra h
    simp [holdsEvent_of_spoils (by simpa using h)] at hholds
  have hsort : sortOut py judge (w.aborted 0) [m] = ([m], []) := by
    simp [sortOut, hholds, haborted]
  refine ⟨?_, ⟨[], ?_, ?_⟩, ?_, ?_, hkept.events, ?_, hkept.alone, fun _ => hkept.owned, ?_⟩
  · rw [hsort, hacks, List.map_singleton]
  · rw [hkept.dlq, List.append_nil]
  · rw [hsort]
    rfl
  · simp [hsort, hkept.stream]
  · rw [hkept.stream]
  · simp [hkept.aborted, haborted, hspoils]
  · intro _ m' hm' e' he'
    rw [hsort] at hm'
    rw [List.mem_singleton.mp hm', hid] at he'
    cases he'
    exact hkept.kept

theorem Turned.putAside {m : Parcel} {w₁ : World} {acc' : Progress} {d : DeadLetter}
    (hnot : (holdsEvent py judge m.fields && !w.aborted 0) = false)
    (hw₁ : w₁ = w ∧ spoils py judge m.fields = false ∨
      w₁ = w.abortTx 0 ∧ spoils py judge m.fields = true)
    (hd : d.originalId = m.id) (hacks : acc'.idsToAck = acc.idsToAck) :
    Turned py settings judge [m] w acc
      (if settings.eventMaxDeliveries ≤ m.deliveryCount then w₁.letter d else w₁) acc' := by
  have hsort : sortOut py judge (w.aborted 0) [m] = ([], [m]) := by
    simp only [sortOut, hnot, Bool.false_eq_true, if_false]
  have hstream : w₁.stream = w.stream ∧ w₁.dlq = w.dlq ∧ w₁.events = w.events := by
    rcases hw₁ with ⟨rfl, -⟩ | ⟨rfl, -⟩ <;> exact ⟨rfl, rfl, rfl⟩
  have haborted : w₁.aborted 0 = (w.aborted 0 || spoils py judge m.fields) := by
    rcases hw₁ with ⟨rfl, h⟩ | ⟨rfl, h⟩ <;> simp [h, World.abortTx]
  have halone : (∀ jr ∈ w.uncommitted, jr.1 = 0) → ∀ jr ∈ w₁.uncommitted, jr.1 = 0 := by
    rcases hw₁ with ⟨rfl, -⟩ | ⟨rfl, -⟩
    · exact id
    · exact fun h jr hjr => h jr (List.mem_of_mem_filter hjr)
  have howned : w₁.aborted 0 = false → ∀ e, w.ownsRow 0 e = true → w₁.ownsRow 0 e = true := by
    rcases hw₁ with ⟨rfl, -⟩ | ⟨rfl, -⟩
    · exact fun _ _ => id
    · simp [World.abortTx]
  constructor
  · rw [hsort, hacks, List.map_nil, List.append_nil]
  · rw [hsort]
    split
    · rename_i hdue
      exact ⟨[d], by simp [World.letter, hstream.2.1], by simp [hdue, hd]⟩
    · rename_i hdue
      exact ⟨[], by simp [hstream.2.1], by simp [hdue]⟩
  · intro p
    rw [hsort]
    split
    · rename_i hdue
      simp [World.letter, Stream.xack, Stream.xdel, hstream.1, hdue, hd]
    · rename_i hdue
      simp [hstream.1, hdue]
  · split <;> simp [World.letter, Stream.xack, Stream.xdel, hstream.1]
  · split <;> simp [World.letter, hstream.2.2]
  · split <;> simp [World.letter, haborted]
  · split <;> exact halone
  · split <;> exact howned
  · simp [hsort]

theorem run_handleMessage (httl : settings.idemTtlSeconds ≠ 0) {m : Parcel} {data : Dict}
    {make : Nat → EventRow} (hdecode : decodeEvent py data = .ok (.row make))
    (hrow : rowOf py m.fields = some make) (halone : ∀ jr ∈ w.uncommitted, jr.1 = 0) :
    ∃ w' acc', ((handleMessage py settings m.id data m.deliveryCount acc).tryExcept fun exc =>
          deadLetterIfDue py settings m.id data m.deliveryCount
            ("exception:" ++ exc.typeName) acc).run (answered judge) w = some (.ok acc', w') ∧
      Turned py settings judge [m] w acc w' acc' := by
  obtain ⟨row, hid, hmake⟩ := rowOf_row hrow
  have hpersist : persistEvent py settings (.delivery m.id m.deliveryCount) data =
      persistRow settings (.delivery m.id m.deliveryCount) make := by
    simp [persistEvent, hdecode, Prog.ofExcept]
  by_cases hok : judge (make 0) = .ok ∧ w.aborted 0 = false
  · obtain ⟨persisted, w', hrun, hvalid, hkept⟩ := run_persistRow_ok httl hmake hok.1 hok.2 halone
      (.delivery m.id m.deliveryCount)
    rw [← hpersist] at hrun
    have hholds : holdsEvent py judge m.fields = true := by simp [holdsEvent, hrow, hok.1]
    obtain ⟨acc', hhandle, hacks⟩ : ∃ acc', (handleMessage py settings m.id data m.deliveryCount
        acc).run (answered judge) w = some (.ok acc', w') ∧
          acc'.idsToAck = acc.idsToAck ++ [m.id] := by
      unfold handleMessage
      rw [Prog.run_bind_ok hrun]
      cases persisted with
      | invalid => exact absurd rfl hvalid
      | inserted => exact ⟨_, rfl, rfl⟩
      | conflict => exact ⟨_, rfl, rfl⟩
    exact ⟨w', acc', Prog.run_tryExcept_ok hhandle, .done hholds hok.2 hid hkept hacks⟩
  · have hrefused : judge (make 0) ≠ .ok ∨ w.aborted 0 = true := by
      simpa using not_and_or.mp hok
    obtain ⟨w₁, hw₁⟩ : ∃ w₁, w₁ = if judge (make 0) = .raiseAfter then w.abortTx 0 else w :=
      ⟨_, rfl⟩
    have hrun := run_persistRow_error settings hmake hrefused (.delivery m.id m.deliveryCount)
    rw [← hpersist, ← hw₁] at hrun
    obtain ⟨acc', d, hacks, hd, hletter⟩ := run_deadLetterIfDue py settings judge w₁ acc
      m.id m.deliveryCount data ("exception:" ++ Exn.dbApiError.typeName)
    have hhandle : (handleMessage py settings m.id data m.deliveryCount acc).run
        (answered judge) w = some (.error .dbApiError, w₁) := Prog.run_bind_error hrun
    refine ⟨_, acc', (Prog.run_tryExcept_error hhandle).trans hletter, .putAside ?_ ?_ hd hacks⟩
    · simpa [holdsEvent, hrow] using hok
    · by_cases hspoils : judge (make 0) = .raiseAfter
      · exact .inr ⟨hw₁.trans (if_pos hspoils), by simp [spoils, hrow, hspoils]⟩
      · exact .inl ⟨hw₁.trans (if_neg hspoils), by simp [spoils, hrow, hspoils]⟩

theorem run_processMessage (judge : EventRow → Choice) (acc : Progress)
    (httl : settings.idemTtlSeconds ≠ 0) {m : Parcel} {data : Dict}
    (hparse : Mq.parseFields py m.fields = .ok (.obj data))
    (halone : ∀ jr ∈ w.uncommitted, jr.1 = 0) :
    ∃ w' acc', (processMessage py settings (m.message py) acc).run (answered judge) w =
        some (.ok acc', w') ∧ Turned py settings judge [m] w acc w' acc' := by
  have hmessage : m.message py = (m.id, .obj data, m.deliveryCount) := by
    simp [Parcel.message, hparse, Except.toOption]
  rw [hmessage]
  simp only [processMessage]
  have hnone : rowOf py m.fields = none → ∀ reason, ∃ w' acc',
      (deadLetterIfDue py settings m.id data m.deliveryCount reason acc).run (answered judge) w =
        some (.ok acc', w') ∧ Turned py settings judge [m] w acc w' acc' := by
    intro hrow reason
    obtain ⟨acc', d, hacks, hd, hrun⟩ := run_deadLetterIfDue py settings judge w acc
      m.id m.deliveryCount data reason
    exact ⟨_, acc', hrun, .putAside (by simp [holdsEvent, hrow])
      (.inl ⟨rfl, by simp [spoils, hrow]⟩) hd hacks⟩
  split
  · rename_i hmarker
    exact hnone (by simp only [rowOf, hparse, hmarker, if_true]) _
  rename_i hmarker
  cases hdecode : decodeEvent py data with
  | error exc =>
      obtain ⟨w', acc', hrun, hturned⟩ := hnone
        (by simp only [rowOf, hparse, hmarker, hdecode]; rfl) ("exception:" ++ exc.typeName)
      refine ⟨w', acc', ?_, hturned⟩
      have hraised : (handleMessage py settings m.id data m.deliveryCount acc).run
          (answered judge) w = some (.error exc, w) := by
        simp [handleMessage, persistEvent, hdecode, Prog.ofExcept, Prog.run]
      rw [Prog.run_tryExcept_error hraised]
      exact hrun
  | ok decoded =>
      cases decoded with
      | invalid =>
          obtain ⟨w', acc', hrun, hturned⟩ := hnone
            (by simp only [rowOf, hparse, hmarker, hdecode]; rfl) "invalid_event"
          refine ⟨w', acc', Prog.run_tryExcept_ok ?_, hturned⟩
          simpa [handleMessage, persistEvent, hdecode, Prog.ofExcept] using hrun
      | row make =>
          exact run_handleMessage httl hdecode
            (by simp only [rowOf, hparse, hmarker, hdecode]; rfl) halone

theorem sortOut_cons (aborted : Bool) (m : Parcel) (parcels : List Parcel) :
    sortOut py judge aborted (m :: parcels) =
      ((sortOut py judge aborted [m]).1 ++
          (sortOut py judge (aborted || spoils py judge m.fields) parcels).1,
        (sortOut py judge aborted [m]).2 ++
          (sortOut py judge (aborted || spoils py judge m.fields) parcels).2) := by
  simp only [sortOut]
  split <;> rfl

theorem sortOut_append (aborted : Bool) (xs ys : List Parcel) :
    sortOut py judge aborted (xs ++ ys) =
      ((sortOut py judge aborted xs).1 ++
          (sortOut py judge (aborted || xs.any fun m => spoils py judge m.fields) ys).1,
        (sortOut py judge aborted xs).2 ++
          (sortOut py judge (aborted || xs.any fun m => spoils py judge m.fields) ys).2) := by
  induction xs generalizing aborted with
  | nil => simp [sortOut]
  | cons m xs ih =>
      rw [List.cons_append, sortOut_cons, ih, sortOut_cons _ _ xs]
      simp [List.append_assoc, Bool.or_assoc]

theorem sortOut_aborted (parcels : List Parcel) :
    sortOut py judge true parcels = ([], parcels) := by
  induction parcels with
  | nil => rfl
  | cons m parcels ih => simp [sortOut, ih]

theorem sortOut_clean {parcels : List Parcel}
    (hclean : ∀ m ∈ parcels, spoils py judge m.fields = false) :
    sortOut py judge false parcels =
      (parcels.filter fun m => holdsEvent py judge m.fields,
        parcels.filter fun m => !holdsEvent py judge m.fields) := by
  induction parcels with
  | nil => rfl
  | cons m parcels ih =>
      obtain ⟨hm, hrest⟩ := List.forall_mem_cons.mp hclean
      simp only [sortOut, hm, Bool.or_false, ih hrest, Bool.not_false, Bool.and_true]
      cases hholds : holdsEvent py judge m.fields <;> simp [hholds]

theorem mem_sortOut {parcels : List Parcel} {m : Parcel} (aborted : Bool) :
    (m ∈ (sortOut py judge aborted parcels).1 → m ∈ parcels ∧
        holdsEvent py judge m.fields = true) ∧
      (m ∈ (sortOut py judge aborted parcels).2 → m ∈ parcels) ∧
      (m ∈ parcels → m ∈ (sortOut py judge aborted parcels).1 ∨
        m ∈ (sortOut py judge aborted parcels).2) := by
  induction parcels generalizing aborted with
  | nil => simp [sortOut]
  | cons q parcels ih =>
      obtain ⟨hdone, haside, hmem⟩ := ih (aborted || spoils py judge q.fields)
      unfold sortOut
      dsimp only
      split
      · rename_i hholds
        simp only [Bool.and_eq_true] at hholds
        grind
      · grind

/-- Up to the first rejected statement, an entry is acknowledged that holds an event. -/
theorem sortOut_split (before after : List Parcel) {m : Parcel}
    (hspoils : spoils py judge m.fields = true) :
    (∀ q ∈ (sortOut py judge false (before ++ m :: after)).1, q ∈ before) ∧
      (∀ q ∈ after, q ∈ (sortOut py judge false (before ++ m :: after)).2) ∧
      ((∀ q ∈ before, spoils py judge q.fields = false) →
        (∀ q ∈ before, holdsEvent py judge q.fields = true →
          q ∈ (sortOut py judge false (before ++ m :: after)).1) ∧
        ∀ q ∈ (sortOut py judge false (before ++ m :: after)).2,
          holdsEvent py judge q.fields = true → q ∈ after) := by
  have hone : ∀ aborted, sortOut py judge aborted [m] = ([], [m]) := by
    intro aborted
    simp [sortOut, holdsEvent_of_spoils hspoils]
  rw [sortOut_append, sortOut_cons, hone, hspoils, Bool.or_true, sortOut_aborted]
  refine ⟨fun q hq => ?_, fun q hq => ?_, fun hclean => ⟨fun q hq hholds => ?_,
    fun q hq hholds => ?_⟩⟩
  · simp only [List.append_nil] at hq
    exact ((mem_sortOut false).1 hq).1
  · exact List.mem_append_right _ (List.mem_cons_of_mem m hq)
  · refine List.mem_append_left _ ?_
    rw [sortOut_clean hclean]
    exact List.mem_filter.mpr ⟨hq, hholds⟩
  · rw [sortOut_clean hclean] at hq
    rcases List.mem_append.mp hq with hq | hq
    · simp [hholds] at hq
    · rcases List.mem_cons.mp hq with rfl | hq
      · simp [holdsEvent_of_spoils hspoils] at hholds
      · exact hq

theorem Turned.cons {m : Parcel} {parcels : List Parcel} {w₁ w₂ : World} {acc₁ acc₂ : Progress}
    (hone : Turned py settings judge [m] w acc w₁ acc₁)
    (hrest : Turned py settings judge parcels w₁ acc₁ w₂ acc₂) :
    Turned py settings judge (m :: parcels) w acc w₂ acc₂ := by
  have haborted : w₁.aborted 0 = (w.aborted 0 || spoils py judge m.fields) := by
    simpa using hone.aborted
  obtain ⟨l₁, hdlq₁, hids₁⟩ := hone.letters
  obtain ⟨l₂, hdlq₂, hids₂⟩ := hrest.letters
  have hclean : w₂.aborted 0 = false → w₁.aborted 0 = false := by
    intro h
    rw [hrest.aborted, Bool.or_eq_false_iff] at h
    exact h.1
  constructor
  · rw [sortOut_cons, ← haborted, hrest.acks, hone.acks, List.map_append, List.append_assoc]
  · refine ⟨l₁ ++ l₂, by rw [hdlq₂, hdlq₁, List.append_assoc], ?_⟩
    rw [sortOut_cons, ← haborted, List.map_append, hids₁, hids₂, List.filter_append,
      List.map_append]
  · intro p
    rw [sortOut_cons, ← haborted, hrest.pel, hone.pel, List.forall_mem_append, and_assoc]
  · rw [hrest.added, hone.added]
  · rw [hrest.events, hone.events]
  · rw [hrest.aborted, haborted, List.any_cons, Bool.or_assoc]
  · exact fun h => hrest.alone (hone.alone h)
  · exact fun h e he => hrest.owned h e (hone.owned (hclean h) e he)
  · intro h m' hm' e he
    rw [sortOut_cons, ← haborted] at hm'
    have hstored : w₁.stored e = w.stored e := by simp [World.stored, hone.events]
    rcases List.mem_append.mp hm' with hm' | hm'
    · exact (hone.kept (hclean h) m' hm' e he).imp_right (hrest.owned h e)
    · exact hstored ▸ hrest.kept h m' hm' e he

theorem run_processMessages (judge : EventRow → Choice) (httl : settings.idemTtlSeconds ≠ 0)
    {parcels : List Parcel}
    (hobjects : ∀ m ∈ parcels, ∃ data, Mq.parseFields py m.fields = .ok (.obj data))
    (halone : ∀ jr ∈ w.uncommitted, jr.1 = 0) (acc : Progress) :
    ∃ w' acc', (processMessages py settings (parcels.map (Parcel.message py)) acc).run
        (answered judge) w = some (.ok acc', w') ∧
      Turned py settings judge parcels w acc w' acc' := by
  induction parcels generalizing w acc with
  | nil =>
      refine ⟨w, acc, rfl, ?_⟩
      constructor <;> simp [sortOut]
  | cons m parcels ih =>
      obtain ⟨data, hparse⟩ := hobjects m List.mem_cons_self
      obtain ⟨w₁, acc₁, hrun, hone⟩ := run_processMessage judge acc httl hparse halone
      obtain ⟨w₂, acc₂, hruns, hrest⟩ := ih (fun m' hm' => hobjects m' (List.mem_cons_of_mem m hm'))
        (hone.alone halone) acc₁
      refine ⟨w₂, acc₂, ?_, hone.cons hrest⟩
      rw [List.map_cons, processMessages, Prog.run_bind_ok hrun]
      exact hruns

theorem objects_of_run {work : List (Nat × Json × Nat)} {w' : World} {acc' : Progress}
    (hrun : (processMessages py settings work acc).run (answered judge) w =
      some (.ok acc', w')) : ∀ m ∈ work, ∃ data, m.2.1 = .obj data := by
  induction work generalizing w acc with
  | nil => simp
  | cons m work ih =>
      unfold processMessages at hrun
      obtain ⟨acc₁, w₁, hone, hrest⟩ := Prog.run_bind_inv hrun
      refine List.forall_mem_cons.mpr ⟨?_, ih hrest⟩
      obtain ⟨id, payload, n⟩ := m
      cases payload with
      | obj data => exact ⟨data, rfl⟩
      | _ => simp [processMessage, Prog.run] at hone

end Turn

end EventAnalytics.Workers
