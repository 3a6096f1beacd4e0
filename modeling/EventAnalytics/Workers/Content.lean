import EventAnalytics.Workers.Batch

/-! What a batch may contain. The stream carries any text, and the worker must put
what it cannot use aside without giving up the rest of the batch. -/
namespace EventAnalytics.Workers

open Library Redis

section Batch

variable (settings : Settings) (w : World)

def fresh : List (Nat × Entry) :=
  w.stream.unread (Mq.batchCount settings settings.batchSize)

def afterRead : World :=
  { w with stream := (w.stream.xreadgroup w.clock settings.eventConsumerName
      (Mq.batchCount settings settings.batchSize)).2 }

def claimed : List (Nat × Entry) :=
  ((afterRead settings w).stream.xautoclaim w.clock settings.eventClaimMinIdleMs
    settings.eventConsumerName (Mq.batchCount settings settings.batchSize)).1

/-- The batch of a pass: what XREADGROUP and XAUTOCLAIM deliver to it. -/
def delivered : List (Nat × Entry) := fresh settings w ++ claimed settings w

/-- The stream when the batch is delivered, with the true delivery counts. -/
def inHand : Stream := claimedStream settings settings.batchSize (afterRead settings w)

/-- The entry counts as due: in its first delivery, or because the listing of delivery
counts gets as far as the entry. -/
def CountsAsDue (id : Nat) : Prop :=
  settings.eventMaxDeliveries ≤ 1 ∨
    ∃ before p, ClaimsNow settings settings.batchSize (afterRead settings w) before p ∧
      p.id = id ∧ settings.eventMaxDeliveries ≤ p.deliveryCount + 1 ∧
      before.countP (fun q => q.id ∉ w.stream.deleted) <
        Mq.batchCount settings settings.batchSize

def reportedCount (id : Nat) : Nat :=
  Mq.deliveryCountOf ((inHand settings w).xpendingRange
    (Mq.batchCount settings settings.batchSize)) id

def parcels : List Parcel :=
  (fresh settings w).map (fun ie => ⟨ie.1, ie.2, 1⟩) ++
    (claimed settings w).map fun ie => ⟨ie.1, ie.2, reportedCount settings w ie.1⟩

end Batch

section Run

variable {py : Python} {settings : Settings} {judge : EventRow → Choice} {w : World}
  {fr cl : List (Nat × Json)}

theorem parseEntries_eq {entries : List (Nat × Entry)} {messages : List (Nat × Json)}
    (h : Mq.parseEntries py entries = .ok messages) :
    messages = entries.map fun ie =>
      (ie.1, (Mq.parseFields py ie.2).toOption.getD .null) := by
  induction entries generalizing messages with
  | nil =>
      cases h
      rfl
  | cons ie entries ih =>
      obtain ⟨data, rest, hparse, hrest, rfl⟩ := parseEntries_cons_ok h
      rw [ih hrest]
      simp [hparse, Except.toOption]

theorem run_read (py : Python) (judge : EventRow → Choice) (hbatch : settings.batchSize ≠ 0)
    (w : World) :
    (Mq.readEventsBatch py settings settings.batchSize).run (answered judge) w =
      some (Mq.parseEntries py (fresh settings w), afterRead settings w) := by
  unfold Mq.readEventsBatch Mq.xreadgroup
  rw [if_neg (show Mq.batchCount settings settings.batchSize ≠ 0 by simpa [Mq.batchCount])]
  have hread : answered judge w (.xreadgroup settings.eventConsumerName
      (Mq.batchCount settings settings.batchSize)) =
      some (.ok (fresh settings w), afterRead settings w) := rfl
  rw [Prog.run_perform_ok hread]
  cases Mq.parseEntries py (fresh settings w) <;> rfl

theorem issues_reclaim (count : Nat) : (Mq.reclaimStaleMessages py settings count).Issues
    fun c => ∀ w, answered judge w c = effect 0 w c := by
  unfold Mq.reclaimStaleMessages
  refine Prog.Issues.bind (Prog.Issues.tryExcept ?_ fun _ => trivial) fun entries => ?_
  · exact Prog.Issues.bind (Prog.issues_perform fun _ => rfl) fun _ => trivial
  · cases entries with
    | none => trivial
    | some entries =>
        refine Prog.Issues.bind ?_ fun _ => ?_
        · exact Prog.Issues.tryExcept (Prog.issues_perform fun _ => rfl) fun _ => trivial
        · exact Prog.Issues.bind (Prog.issues_ofExcept _) fun _ => trivial

theorem run_reclaimed (py : Python) (settings : Settings) (judge : EventRow → Choice)
    (w : World) :
    (Mq.reclaimStaleMessages py settings settings.batchSize).run (answered judge)
        (afterRead settings w) =
      some ((Mq.parseEntries py (claimed settings w)).map fun out =>
          out.map fun md => (md.1, md.2, reportedCount settings w md.1),
        { w with stream := inHand settings w }) := by
  rw [Prog.run_congr (issues_reclaim _) fun c w hc => hc w]
  exact run_reclaim

theorem run_ackMessages (judge : EventRow → Choice) (w : World) (ids : List Nat) :
    ∃ w', (Mq.ackMessages ids).run (answered judge) w = some (.ok (), w') ∧
      w'.dlq = w.dlq ∧ w'.events = w.events ∧ w'.stream.added = w.stream.added ∧
      ∀ p, p ∈ w'.stream.pel ↔ p ∈ w.stream.pel ∧ p.id ∉ ids := by
  unfold Mq.ackMessages
  cases ids with
  | nil => exact ⟨w, rfl, rfl, rfl, rfl, by simp⟩
  | cons id ids =>
      refine ⟨{ w with stream := w.stream.xack (id :: ids) }, rfl, rfl, rfl, rfl, fun p => ?_⟩
      simp [Stream.xack]

theorem run_passSession {body : App Progress} {w₁ : World} {acc : Progress}
    (hbody : body.run (answered judge) w = some (.ok acc, w₁)) :
    (Db.withSession (await .rollback) do
        let acc ← body
        await .commit
        pure acc).run (answered judge) w =
      some (.ok acc, (w₁.commitTx 0).rollbackTx 0) := by
  have hcommitted : (body >>= fun acc => await .commit >>= fun _ => pure acc).run
      (answered judge) w = some (.ok acc, w₁.commitTx 0) := by
    have hcommit : answered judge w₁ .commit = some (.ok (), w₁.commitTx 0) := rfl
    rw [Prog.run_bind_ok hbody, Prog.run_perform_ok hcommit]
    rfl
  have hrollback : answered judge (w₁.commitTx 0) .rollback =
      some (.ok (), (w₁.commitTx 0).rollbackTx 0) := rfl
  unfold Db.withSession
  rw [Prog.run_bind_ok (Prog.run_tryExcept_ok hcommitted), Prog.run_perform_ok hrollback]
  rfl

theorem parcels_message (hfresh : Mq.parseEntries py (fresh settings w) = .ok fr)
    (hclaimed : Mq.parseEntries py (claimed settings w) = .ok cl) :
    (parcels settings w).map (Parcel.message py) = fr.map (fun md => (md.1, md.2, 1)) ++
      cl.map fun md => (md.1, md.2, reportedCount settings w md.1) := by
  rw [parseEntries_eq hfresh, parseEntries_eq hclaimed]
  simp [parcels, Parcel.message, Function.comp_def]

structure Passed (py : Python) (settings : Settings) (judge : EventRow → Choice) (w w' : World) :
    Prop where
  letters : ∃ letters, w'.dlq = w.dlq ++ letters ∧ letters.map DeadLetter.originalId =
    ((sortOut py judge false (parcels settings w)).2.filter fun m =>
      settings.eventMaxDeliveries ≤ m.deliveryCount).map Parcel.id
  pel : ∀ p, p ∈ w'.stream.pel ↔ p ∈ (inHand settings w).pel ∧
    (∀ m ∈ (sortOut py judge false (parcels settings w)).2,
      settings.eventMaxDeliveries ≤ m.deliveryCount → p.id ≠ m.id) ∧
    ∀ m ∈ (sortOut py judge false (parcels settings w)).1, p.id ≠ m.id
  added : w'.stream.added = w.stream.added
  spoilt : (∃ m ∈ parcels settings w, spoils py judge m.fields = true) → w'.events = w.events
  kept : (∀ m ∈ parcels settings w, spoils py judge m.fields = false) →
    ∀ m ∈ (sortOut py judge false (parcels settings w)).1,
      ∀ e, eventIdOf py m.fields = some e → w'.stored e = true

structure AtRest (w : World) : Prop where
  uncommitted : w.uncommitted = []
  aborted : w.aborted 0 = false

theorem Turned.passed {w₁ w₃ : World} {acc : Progress}
    (h : Turned py settings judge (parcels settings w) { w with stream := inHand settings w } {}
      w₁ acc) (hrest : AtRest w) (hdlq : w₃.dlq = ((w₁.commitTx 0).rollbackTx 0).dlq)
    (hevents : w₃.events = ((w₁.commitTx 0).rollbackTx 0).events)
    (hadded : w₃.stream.added = ((w₁.commitTx 0).rollbackTx 0).stream.added)
    (hpel : ∀ p, p ∈ w₃.stream.pel ↔
      p ∈ ((w₁.commitTx 0).rollbackTx 0).stream.pel ∧ p.id ∉ acc.idsToAck) :
    Passed py settings judge w w₃ := by
  have hacks := h.acks
  have hletters := h.letters
  have hlisted := h.pel
  have hkept := h.kept
  simp only [hrest.aborted, List.nil_append] at hacks hletters hlisted hkept
  constructor
  · rw [hdlq]
    exact hletters
  · intro p
    rw [hpel, hacks]
    have hids : p.id ∉ ((sortOut py judge false (parcels settings w)).1.map Parcel.id) ↔
        ∀ m ∈ (sortOut py judge false (parcels settings w)).1, p.id ≠ m.id := by
      simp [List.mem_map, eq_comm]
    rw [hids, ← and_assoc]
    exact and_congr_left fun _ => hlisted p
  · rw [hadded]
    exact h.added
  · rintro ⟨m, hm, hspoils⟩
    have haborted : w₁.aborted 0 = true := by
      rw [h.aborted, List.any_eq_true.mpr ⟨m, hm, hspoils⟩, Bool.or_true]
    rw [hevents]
    simp [World.rollbackTx, World.commitTx, haborted, h.events]
  · intro hclean m hm e he
    have haborted : w₁.aborted 0 = false := by
      rw [h.aborted, hrest.aborted, Bool.false_or, List.any_eq_false]
      exact fun m' hm' => by simp [hclean m' hm']
    have hafter : w₃.events = w.events ++ w₁.ownRows 0 := by
      rw [hevents]
      simp [World.rollbackTx, World.commitTx, haborted, h.events]
    rw [World.stored, hafter, List.any_append, Bool.or_eq_true]
    refine (hkept haborted m hm e he).imp id fun hown => ?_
    simpa [World.ownsRow_iff] using hown

theorem run_pass (judge : EventRow → Choice) (httl : settings.idemTtlSeconds ≠ 0)
    (hbatch : settings.batchSize ≠ 0) (hrest : AtRest w)
    (hobjects : ∀ m ∈ parcels settings w,
      ∃ data, Mq.parseFields py m.fields = .ok (.obj data)) :
    ∃ res w', (processEventStream py settings).run (answered judge) w = some (.ok res, w') ∧
      Passed py settings judge w w' := by
  obtain ⟨fr, hfresh⟩ : ∃ fr, Mq.parseEntries py (fresh settings w) = .ok fr := by
    refine parseEntries_isOk.mpr fun ie hie => ?_
    obtain ⟨data, hdata⟩ := hobjects ⟨ie.1, ie.2, 1⟩
      (List.mem_append_left _ (List.mem_map_of_mem (f := fun ie => (⟨ie.1, ie.2, 1⟩ : Parcel)) hie))
    exact ⟨_, hdata⟩
  obtain ⟨cl, hclaimed⟩ : ∃ cl, Mq.parseEntries py (claimed settings w) = .ok cl := by
    refine parseEntries_isOk.mpr fun ie hie => ?_
    obtain ⟨data, hdata⟩ := hobjects ⟨ie.1, ie.2, reportedCount settings w ie.1⟩
      (List.mem_append_right _ (List.mem_map_of_mem hie))
    exact ⟨_, hdata⟩
  have hread := run_read py judge hbatch w
  have hreclaim := run_reclaimed py settings judge w
  rw [hfresh] at hread
  rw [hclaimed] at hreclaim
  unfold processEventStream
  rw [Prog.run_bind_ok hread, Prog.run_bind_ok hreclaim, ← parcels_message hfresh hclaimed]
  dsimp only
  split
  · rename_i hempty
    have hnil : parcels settings w = [] := by simpa using hempty
    refine ⟨_, { w with stream := inHand settings w }, rfl, ?_⟩
    constructor <;> simp [hnil, sortOut, inHand, claimedStream, Stream.xautoclaim, afterRead,
      Stream.xreadgroup]
  · obtain ⟨w₁, acc, hloop, hturned⟩ := run_processMessages judge httl hobjects
      (w := { w with stream := inHand settings w }) (by simp [hrest.uncommitted]) {}
    obtain ⟨w₃, hack, hdlq, hevents, hadded, hpel⟩ := run_ackMessages judge
      ((w₁.commitTx 0).rollbackTx 0) acc.idsToAck
    rw [Prog.run_bind_ok (run_passSession hloop), Prog.run_bind_ok hack]
    exact ⟨_, w₃, rfl, hturned.passed hrest hdlq hevents hadded hpel⟩

theorem batchSize_of_read {fr : List (Nat × Json)} {w₁ : World}
    (hread : (Mq.readEventsBatch py settings settings.batchSize).run (answered judge) w =
      some (.ok fr, w₁)) : settings.batchSize ≠ 0 := by
  intro hzero
  simp only [Mq.readEventsBatch, Mq.xreadgroup, Mq.batchCount, hzero, ite_true] at hread
  cases hread

theorem objects_of_pass {res : PassResult} {w' : World}
    (hrun : (processEventStream py settings).run (answered judge) w = some (.ok res, w')) :
    settings.batchSize ≠ 0 ∧
      ∀ m ∈ parcels settings w, ∃ data, Mq.parseFields py m.fields = .ok (.obj data) := by
  obtain ⟨fr, w₁, hread, hrun⟩ := Prog.run_bind_inv hrun
  have hbatch := batchSize_of_read hread
  refine ⟨hbatch, ?_⟩
  rw [run_read py judge hbatch, Option.some.injEq, Prod.mk.injEq] at hread
  obtain ⟨hfresh, rfl⟩ := hread
  obtain ⟨out, w₂, hreclaim, hrun⟩ := Prog.run_bind_inv hrun
  rw [run_reclaimed, Option.some.injEq, Prod.mk.injEq] at hreclaim
  obtain ⟨hout, rfl⟩ := hreclaim
  cases hclaimed : Mq.parseEntries py (claimed settings w) with
  | error e => simp [hclaimed, Except.map] at hout
  | ok cl =>
      simp only [hclaimed, Except.map, Except.ok.injEq] at hout
      subst hout
      rw [← parcels_message hfresh hclaimed] at hrun
      have hobjects : ∀ m ∈ (parcels settings w).map (Parcel.message py),
          ∃ data, m.2.1 = .obj data := by
        dsimp only at hrun
        split at hrun
        · rename_i hempty
          simp [List.isEmpty_iff.mp hempty]
        · obtain ⟨acc, w₃, hsession, -⟩ := Prog.run_bind_inv hrun
          obtain ⟨acc', w₄, htry, -⟩ := Prog.run_bind_inv hsession
          rcases Prog.run_tryExcept_inv htry with hbody | ⟨e, w₅, -, hraise⟩
          · obtain ⟨acc'', w₅, hloop, -⟩ := Prog.run_bind_inv hbody
            exact objects_of_run hloop
          · obtain ⟨_, w₆, -, hraise⟩ := Prog.run_bind_inv hraise
            cases hraise
      intro m hm
      obtain ⟨data, hdata⟩ := hobjects _ (List.mem_map_of_mem hm)
      have hfields : ∃ payload, Mq.parseFields py m.fields = .ok payload := by
        rcases List.mem_append.mp hm with hm | hm <;> obtain ⟨ie, hie, rfl⟩ := List.mem_map.mp hm
        · exact parseEntries_isOk.mp ⟨fr, hfresh⟩ ie hie
        · exact parseEntries_isOk.mp ⟨cl, hclaimed⟩ ie hie
      obtain ⟨payload, hpayload⟩ := hfields
      refine ⟨data, ?_⟩
      simpa [Parcel.message, hpayload, Except.toOption] using hdata

end Run

section Delivered

variable {py : Python} {settings : Settings} {judge : EventRow → Choice} {w : World}

theorem mem_delivered {m : Parcel} (hm : m ∈ parcels settings w) :
    (m.id, m.fields) ∈ delivered settings w := by
  rcases List.mem_append.mp hm with hm | hm <;> obtain ⟨ie, hie, rfl⟩ := List.mem_map.mp hm
  · exact List.mem_append_left _ hie
  · exact List.mem_append_right _ hie

theorem delivered_eq : delivered settings w =
    (parcels settings w).map fun m => (m.id, m.fields) := by
  simp [delivered, parcels, Function.comp_def]

theorem claimed_iff {ie : Nat × Entry} : ie ∈ claimed settings w ↔
    w.stream.added[ie.1]? = some ie.2 ∧
      ∃ before p, ClaimsNow settings settings.batchSize (afterRead settings w) before p ∧
        p.id = ie.1 :=
  Stream.mem_xautoclaim

theorem delivered_added {ie : Nat × Entry} (h : ie ∈ delivered settings w) :
    w.stream.added[ie.1]? = some ie.2 := by
  rcases List.mem_append.mp h with h | h
  · exact (Stream.mem_unread h).2.1
  · exact (claimed_iff.mp h).1

theorem same_fields {a b : Nat × Entry} (ha : a ∈ delivered settings w)
    (hb : b ∈ delivered settings w) (hid : a.1 = b.1) : a = b := by
  have hfields := delivered_added hb
  rw [← hid, delivered_added ha] at hfields
  exact Prod.ext hid (Option.some.inj hfields)

theorem fresh_pending {ie : Nat × Entry} (h : ie ∈ fresh settings w) :
    ⟨ie.1, settings.eventConsumerName, w.clock, 1⟩ ∈ (afterRead settings w).stream.pel :=
  List.mem_append_right _ (List.mem_map_of_mem h)

theorem claimed_pending {before : List Pending} {p : Pending}
    (h : ClaimsNow settings settings.batchSize (afterRead settings w) before p) :
    ⟨p.id, settings.eventConsumerName, w.clock, p.deliveryCount + 1⟩ ∈ (inHand settings w).pel := by
  obtain ⟨kept, rest, hpel, -⟩ := h.kept settings.eventConsumerName
  change _ ∈ (claimedStream settings settings.batchSize (afterRead settings w)).pel
  unfold claimedStream
  rw [hpel]
  exact List.mem_append_right _ List.mem_cons_self

theorem delivered_pending {ie : Nat × Entry} (h : ie ∈ delivered settings w) :
    (inHand settings w).IsPending ie.1 := by
  rcases List.mem_append.mp h with h | h
  · exact Stream.IsPending.xautoclaim ⟨_, fresh_pending h, rfl⟩ (Stream.mem_unread h).2.2 _ _ _ _
  · obtain ⟨-, before, p, hclaims, hid⟩ := claimed_iff.mp h
    exact ⟨_, claimed_pending hclaims, hid⟩

theorem reportedCount_eq {before : List Pending} {p : Pending}
    (h : ClaimsNow settings settings.batchSize (afterRead settings w) before p) :
    reportedCount settings w p.id =
      if before.countP (fun q => q.id ∉ w.stream.deleted) <
        Mq.batchCount settings settings.batchSize then p.deliveryCount + 1 else 1 :=
  deliveryCountOf_claims h

theorem inHand_count {ie : Nat × Entry} (h : ie ∈ delivered settings w) {p : Pending}
    (hp : p ∈ (inHand settings w).pel) (hid : p.id = ie.1) :
    (ie ∈ fresh settings w ∧ p.deliveryCount = 1) ∨
      ∃ before q, ClaimsNow settings settings.batchSize (afterRead settings w) before q ∧
        q.id = ie.1 ∧ p.deliveryCount = q.deliveryCount + 1 := by
  rcases Stream.mem_pel_xautoclaim hp with hold | ⟨before, q, hclaims, rfl⟩
  · rcases List.mem_append.mp h with hfresh | hclaimed
    · have heq := Stream.pel_unique hold (fresh_pending hfresh) hid
      exact .inl ⟨hfresh, by rw [heq]⟩
    · obtain ⟨-, before, q, hclaims, hq⟩ := claimed_iff.mp hclaimed
      have heq := Stream.pel_unique hp (claimed_pending hclaims) (hid.trans hq.symm)
      exact .inr ⟨before, q, hclaims, hq, by rw [heq]⟩
  · exact .inr ⟨before, q, hclaims, hid, rfl⟩

theorem one_le_deliveryCount {m : Parcel} (hm : m ∈ parcels settings w) : 1 ≤ m.deliveryCount := by
  rcases List.mem_append.mp hm with hm | hm <;> obtain ⟨ie, hie, rfl⟩ := List.mem_map.mp hm
  · exact le_rfl
  · obtain ⟨-, before, p, hclaims, hid⟩ := claimed_iff.mp hie
    have hcount := reportedCount_eq hclaims
    rw [hid] at hcount
    simp only [hcount]
    split <;> omega

theorem deliveryCount_le {m : Parcel} (hm : m ∈ parcels settings w) {p : Pending}
    (hp : p ∈ (inHand settings w).pel) (hid : p.id = m.id) :
    m.deliveryCount ≤ p.deliveryCount := by
  rcases List.mem_append.mp hm with hm' | hm' <;> obtain ⟨ie, hie, rfl⟩ := List.mem_map.mp hm'
  · rcases inHand_count (List.mem_append_left _ hie) hp hid with ⟨-, h⟩ | ⟨_, q, _, _, h⟩
    · exact h.ge
    · simp only [h]
      omega
  · obtain ⟨-, before, q, hclaims, hq⟩ := claimed_iff.mp hie
    have heq := Stream.pel_unique hp (claimed_pending hclaims) (hid.trans hq.symm)
    have hcount := reportedCount_eq hclaims
    rw [hq] at hcount
    simp only [hcount, heq]
    split <;> omega

theorem countsAsDue_iff {ie : Nat × Entry} (h : ie ∈ delivered settings w) :
    CountsAsDue settings w ie.1 ↔ ∃ m ∈ parcels settings w, m.id = ie.1 ∧
      settings.eventMaxDeliveries ≤ m.deliveryCount := by
  constructor
  · rintro (hone | ⟨before, p, hclaims, hid, hdue, hlisted⟩)
    · rw [delivered_eq] at h
      obtain ⟨m, hm, rfl⟩ := List.mem_map.mp h
      exact ⟨m, hm, rfl, hone.trans (one_le_deliveryCount hm)⟩
    · have hie : ie ∈ claimed settings w :=
        claimed_iff.mpr ⟨delivered_added h, before, p, hclaims, hid⟩
      refine ⟨_, List.mem_append_right _ (List.mem_map_of_mem hie), rfl, ?_⟩
      have hcount := reportedCount_eq hclaims
      rw [if_pos hlisted, hid] at hcount
      simpa only [hcount] using hdue
  · rintro ⟨m, hm, hid, hdue⟩
    rcases List.mem_append.mp hm with hm | hm <;> obtain ⟨ie', hie', rfl⟩ := List.mem_map.mp hm
    · exact .inl hdue
    · obtain ⟨-, before, p, hclaims, hp⟩ := claimed_iff.mp hie'
      have hcount := reportedCount_eq hclaims
      rw [hp] at hcount
      simp only [hcount] at hdue
      split at hdue
      · rename_i hlisted
        exact .inr ⟨before, p, hclaims, hp.trans hid, hdue, hlisted⟩
      · exact .inl hdue

theorem parcels_pairwise (settings : Settings) (w : World) :
    (parcels settings w).Pairwise fun a b =>
      a.id = b.id → b.deliveryCount = reportedCount settings w b.id := by
  refine List.pairwise_append.mpr ⟨?_, ?_, fun a _ b hb _ => ?_⟩
  · rw [List.pairwise_map]
    exact (w.stream.entries_sorted.sublist (w.stream.unread_sublist _)).imp
      fun hlt heq => absurd heq hlt.ne
  · rw [List.pairwise_map]
    exact List.pairwise_of_forall fun _ _ _ => rfl
  · obtain ⟨ie, -, rfl⟩ := List.mem_map.mp hb
    rfl

end Delivered

section Digest

variable {py : Python} {settings : Settings} {judge : EventRow → Choice} {w w' : World}

def NewLetter (w w' : World) (id : Nat) : Prop :=
  ∃ letters, w'.dlq = w.dlq ++ letters ∧ ∃ d ∈ letters, d.originalId = id

/-- Every event of the batch is committed and acknowledged; everything else is
dead-lettered when its deliveries are used up and stays pending until then. -/
structure Handled (py : Python) (settings : Settings) (judge : EventRow → Choice)
    (w w' : World) : Prop where
  events : ∀ ie ∈ delivered settings w, holdsEvent py judge ie.2 = true →
    Committed py w' ie.1 ∧ ¬ w'.stream.IsPending ie.1 ∧ ¬ NewLetter w w' ie.1
  others : ∀ ie ∈ delivered settings w, holdsEvent py judge ie.2 = false →
    ∃ p ∈ (inHand settings w).pel, p.id = ie.1 ∧
      (settings.eventMaxDeliveries ≤ p.deliveryCount →
        NewLetter w w' ie.1 ∧ ¬ w'.stream.IsPending ie.1) ∧
      (p.deliveryCount < settings.eventMaxDeliveries →
        p ∈ w'.stream.pel ∧ ¬ NewLetter w w' ie.1)

/-- Payloads are objects; a row that the server rejects has only stored events around
it, and before it; and what is due counts as due. -/
structure Digestible (py : Python) (settings : Settings) (judge : EventRow → Choice)
    (w : World) : Prop where
  objects : ∀ ie ∈ delivered settings w, ∃ data, Mq.parseFields py ie.2 = .ok (.obj data)
  spared : ∀ before ie after, delivered settings w = before ++ ie :: after →
    spoils py judge ie.2 = true → ∀ v ∈ delivered settings w, holdsEvent py judge v.2 = true →
      Committed py w v.1 ∧ v ∈ before ∧ (v ∈ after → ¬ CountsAsDue settings w v.1)
  counted : ∀ before p fields,
    ClaimsNow settings settings.batchSize (afterRead settings w) before p →
    w.stream.added[p.id]? = some fields → holdsEvent py judge fields = false →
    settings.eventMaxDeliveries ≤ p.deliveryCount + 1 → CountsAsDue settings w p.id

theorem Passed.newLetter_iff (h : Passed py settings judge w w') {id : Nat} :
    NewLetter w w' id ↔ ∃ m ∈ (sortOut py judge false (parcels settings w)).2,
      settings.eventMaxDeliveries ≤ m.deliveryCount ∧ m.id = id := by
  obtain ⟨letters, hdlq, hids⟩ := h.letters
  have hid : id ∈ letters.map DeadLetter.originalId ↔
      ∃ m ∈ (sortOut py judge false (parcels settings w)).2,
        settings.eventMaxDeliveries ≤ m.deliveryCount ∧ m.id = id := by
    rw [hids]
    simp [and_assoc]
  rw [← hid, List.mem_map]
  constructor
  · rintro ⟨letters', hdlq', hd⟩
    exact List.append_cancel_left (hdlq'.symm.trans hdlq) ▸ hd
  · exact fun hd => ⟨letters, hdlq, hd⟩

theorem Passed.settled (h : Passed py settings judge w w') {id : Nat}
    (hpending : (inHand settings w).IsPending id) (hnot : ¬ w'.stream.IsPending id) :
    NewLetter w w' id ∨
      ∃ m ∈ (sortOut py judge false (parcels settings w)).1, m.id = id := by
  obtain ⟨p, hp, rfl⟩ := hpending
  by_contra hneither
  rw [not_or, h.newLetter_iff] at hneither
  refine hnot ⟨p, (h.pel p).mpr ⟨hp, fun m hm hdue hid => ?_, fun m hm hid => ?_⟩, rfl⟩
  · exact hneither.1 ⟨m, hm, hdue, hid.symm⟩
  · exact hneither.2 ⟨m, hm, hid.symm⟩

theorem committed_of_stored (h : Passed py settings judge w w') {m : Parcel}
    (hm : m ∈ parcels settings w) (hholds : holdsEvent py judge m.fields = true)
    (hstored : ∀ e, eventIdOf py m.fields = some e → w'.stored e = true) :
    Committed py w' m.id := by
  unfold holdsEvent at hholds
  split at hholds
  · rename_i make hrow
    obtain ⟨row, he, -⟩ := rowOf_row hrow
    exact ⟨m.fields, row.eventId, by rw [h.added]; exact delivered_added (mem_delivered hm), he,
      hstored _ he⟩
  · cases hholds

theorem Passed.not_pending_of_letter (h : Passed py settings judge w w') {id : Nat}
    (hletter : NewLetter w w' id) : ¬ w'.stream.IsPending id := by
  obtain ⟨m, hm, hdue, rfl⟩ := h.newLetter_iff.mp hletter
  rintro ⟨p, hp, hid⟩
  exact ((h.pel p).mp hp).2.1 m hm hdue hid

theorem Passed.not_pending_of_done (h : Passed py settings judge w w') {m : Parcel}
    (hm : m ∈ (sortOut py judge false (parcels settings w)).1) :
    ¬ w'.stream.IsPending m.id := by
  rintro ⟨p, hp, hid⟩
  exact ((h.pel p).mp hp).2.2 m hm hid

theorem parcel_fields {m : Parcel} (hm : m ∈ parcels settings w) {ie : Nat × Entry}
    (hie : ie ∈ delivered settings w) (hid : m.id = ie.1) : (m.id, m.fields) = ie :=
  same_fields (mem_delivered hm) hie hid

theorem exists_parcel {ie : Nat × Entry} (h : ie ∈ delivered settings w) :
    ∃ m ∈ parcels settings w, (m.id, m.fields) = ie := by
  rw [delivered_eq] at h
  exact List.mem_map.mp h

theorem Digestible.events (h : Digestible py settings judge w)
    (hpassed : Passed py settings judge w w') {ie : Nat × Entry} (hie : ie ∈ delivered settings w)
    (hholds : holdsEvent py judge ie.2 = true) :
    Committed py w' ie.1 ∧ ¬ w'.stream.IsPending ie.1 ∧ ¬ NewLetter w w' ie.1 := by
  obtain ⟨m, hm, rfl⟩ := exists_parcel hie
  by_cases hclean : ∀ q ∈ parcels settings w, spoils py judge q.fields = false
  · have hsort := sortOut_clean hclean
    have hdone : m ∈ (sortOut py judge false (parcels settings w)).1 := by
      rw [hsort]
      exact List.mem_filter.mpr ⟨hm, hholds⟩
    refine ⟨committed_of_stored hpassed hm hholds (hpassed.kept hclean m hdone),
      hpassed.not_pending_of_done hdone, fun hletter => ?_⟩
    obtain ⟨q, hq, -, hid⟩ := hpassed.newLetter_iff.mp hletter
    rw [hsort] at hq
    obtain ⟨hq, hnot⟩ := List.mem_filter.mp hq
    have hfields := (Prod.mk.inj (parcel_fields hq hie hid)).2
    simp [hfields, hholds] at hnot
  · obtain ⟨q, hfind⟩ : ∃ q, (parcels settings w).find? (fun q => spoils py judge q.fields) =
        some q := by
      rw [← Option.isSome_iff_exists, List.find?_isSome]
      simpa using hclean
    obtain ⟨hspoils, before, after, hsplit, hbefore⟩ := List.find?_eq_some_iff_append.mp hfind
    have hbefore : ∀ q ∈ before, spoils py judge q.fields = false := by simpa using hbefore
    obtain ⟨hcommitted, hearlier, hlater⟩ := h.spared
      (before.map fun m => (m.id, m.fields)) (q.id, q.fields)
      (after.map fun m => (m.id, m.fields)) (by rw [delivered_eq, hsplit]; simp) hspoils _ hie
      hholds
    obtain ⟨-, -, hafter⟩ := sortOut_split before after hspoils
    obtain ⟨hdone, haside⟩ := hafter hbefore
    rw [← hsplit] at hdone haside
    refine ⟨?_, ?_, fun hletter => ?_⟩
    · have hevents := hpassed.spoilt ⟨q, by simp [hsplit], hspoils⟩
      obtain ⟨fields, e, hadded, he, hstored⟩ := hcommitted
      exact ⟨fields, e, by rw [hpassed.added]; exact hadded, he, by
        rw [World.stored, hevents]; exact hstored⟩
    · obtain ⟨m', hm', heq⟩ := List.mem_map.mp hearlier
      obtain ⟨hid, hfields⟩ := Prod.mk.inj heq
      have hpending := hpassed.not_pending_of_done (hdone m' hm' (by rw [hfields]; exact hholds))
      rwa [hid] at hpending
    · obtain ⟨m', hm', hdue, hid⟩ := hpassed.newLetter_iff.mp hletter
      have hmem := (mem_sortOut false).2.1 hm'
      have heq := parcel_fields hmem hie hid
      have hm' := haside m' hm' (by rw [(Prod.mk.inj heq).2]; exact hholds)
      exact hlater (List.mem_map.mpr ⟨m', hm', heq⟩)
        ((countsAsDue_iff hie).mpr ⟨m', hmem, hid, hdue⟩)

theorem Digestible.others (h : Digestible py settings judge w)
    (hpassed : Passed py settings judge w w') {ie : Nat × Entry} (hie : ie ∈ delivered settings w)
    (hnot : holdsEvent py judge ie.2 = false) :
    ∃ p ∈ (inHand settings w).pel, p.id = ie.1 ∧
      (settings.eventMaxDeliveries ≤ p.deliveryCount →
        NewLetter w w' ie.1 ∧ ¬ w'.stream.IsPending ie.1) ∧
      (p.deliveryCount < settings.eventMaxDeliveries →
        p ∈ w'.stream.pel ∧ ¬ NewLetter w w' ie.1) := by
  obtain ⟨p, hp, hpid⟩ := delivered_pending hie
  have haside : ∀ m ∈ parcels settings w, m.id = ie.1 →
      m ∈ (sortOut py judge false (parcels settings w)).2 := by
    intro m hm hid
    refine (((mem_sortOut false).2.2 hm).resolve_left fun hdone => ?_)
    have hholds := ((mem_sortOut false).1 hdone).2
    cases parcel_fields hm hie hid
    simp [hnot] at hholds
  refine ⟨p, hp, hpid, fun hdue => ?_, fun hyoung => ?_⟩
  · have hcounts : CountsAsDue settings w ie.1 := by
      rcases inHand_count hie hp hpid with ⟨-, hone⟩ | ⟨before, q, hclaims, hq, hcount⟩
      · exact .inl (hone ▸ hdue)
      · rw [← hq]
        refine h.counted before q ie.2 hclaims ?_ hnot (hcount ▸ hdue)
        rw [hq]
        exact delivered_added hie
    obtain ⟨m, hm, hid, hmdue⟩ := (countsAsDue_iff hie).mp hcounts
    have hletter : NewLetter w w' ie.1 :=
      hpassed.newLetter_iff.mpr ⟨m, haside m hm hid, hmdue, hid⟩
    exact ⟨hletter, hpassed.not_pending_of_letter hletter⟩
  · have hfew : ∀ m ∈ (sortOut py judge false (parcels settings w)).2,
        settings.eventMaxDeliveries ≤ m.deliveryCount → p.id ≠ m.id := by
      intro m hm hmdue hid
      have := deliveryCount_le ((mem_sortOut false).2.1 hm) hp hid
      omega
    refine ⟨(hpassed.pel p).mpr ⟨hp, hfew, fun m hm hid => ?_⟩, fun hletter => ?_⟩
    · obtain ⟨hm, hholds⟩ := (mem_sortOut false).1 hm
      cases parcel_fields hm hie (hid.symm.trans hpid)
      simp [hnot] at hholds
    · obtain ⟨m, hm, hmdue, hid⟩ := hpassed.newLetter_iff.mp hletter
      exact hfew m hm hmdue (hpid.trans hid.symm)

theorem Handled.spared (h : Handled py settings judge w w')
    (hpassed : Passed py settings judge w w') {before after : List (Nat × Entry)}
    {ie v : Nat × Entry} (hsplit : delivered settings w = before ++ ie :: after)
    (hspoils : spoils py judge ie.2 = true) (hv : v ∈ delivered settings w)
    (hholds : holdsEvent py judge v.2 = true) :
    Committed py w v.1 ∧ v ∈ before ∧ (v ∈ after → ¬ CountsAsDue settings w v.1) := by
  obtain ⟨⟨fields, e, hadded, he, hstored⟩, hnot, hletter⟩ := h.events v hv hholds
  rw [delivered_eq] at hsplit
  obtain ⟨ms, rest, hparcels, rfl, hrest⟩ := List.map_eq_append_iff.mp hsplit
  obtain ⟨q, later, rfl, rfl, rfl⟩ := List.map_eq_cons_iff.mp hrest
  obtain ⟨hdone, haside, -⟩ := sortOut_split ms later hspoils
  rw [← hparcels] at hdone haside
  have hevents := hpassed.spoilt ⟨q, by simp [hparcels], hspoils⟩
  obtain ⟨m, hm, hmid⟩ := (hpassed.settled (delivered_pending hv) hnot).resolve_left hletter
  have hmparcels := ((mem_sortOut false).1 hm).1
  refine ⟨⟨fields, e, ?_, he, ?_⟩, ?_, fun hlater hcounts => ?_⟩
  · rwa [hpassed.added] at hadded
  · rwa [World.stored, hevents] at hstored
  · exact List.mem_map.mpr ⟨m, hdone m hm, parcel_fields hmparcels hv hmid⟩
  · obtain ⟨m₂, hm₂, heq⟩ := List.mem_map.mp hlater
    have hid₂ : m₂.id = v.1 := congrArg Prod.fst heq
    obtain ⟨m₁, hm₁, hid₁, hdue⟩ := (countsAsDue_iff hv).mp hcounts
    have hdue₂ : settings.eventMaxDeliveries ≤ m₂.deliveryCount := by
      have hpairwise := parcels_pairwise settings w
      rw [hparcels] at hpairwise
      have hcount : m₂.deliveryCount = reportedCount settings w m₂.id :=
        (List.pairwise_append.mp hpairwise).2.2 m (hdone m hm) m₂ (List.mem_cons_of_mem _ hm₂)
          (hmid.trans hid₂.symm)
      rcases List.mem_append.mp hm₁ with hfresh | hclaimed
      · obtain ⟨ie, -, rfl⟩ := List.mem_map.mp hfresh
        have hmem : m₂ ∈ parcels settings w := by
          rw [hparcels]
          exact List.mem_append_right _ (List.mem_cons_of_mem _ hm₂)
        exact hdue.trans (one_le_deliveryCount hmem)
      · obtain ⟨ie, -, rfl⟩ := List.mem_map.mp hclaimed
        rw [hcount, hid₂, ← hid₁]
        exact hdue
    exact hletter (hpassed.newLetter_iff.mpr ⟨m₂, haside m₂ hm₂, hdue₂, hid₂⟩)

/-- A pass gets to its end and does right by every message if and only if it can
digest the batch. -/
theorem pass_handles_iff (py : Python) {settings : Settings} (judge : EventRow → Choice)
    {w : World} (httl : settings.idemTtlSeconds ≠ 0) (hrest : AtRest w) :
    (∃ res w', (processEventStream py settings).run (answered judge) w = some (.ok res, w') ∧
        Handled py settings judge w w') ↔
      settings.batchSize ≠ 0 ∧ Digestible py settings judge w := by
  have hobjects : (∀ m ∈ parcels settings w,
      ∃ data, Mq.parseFields py m.fields = .ok (.obj data)) ↔
      ∀ ie ∈ delivered settings w, ∃ data, Mq.parseFields py ie.2 = .ok (.obj data) := by
    simp [delivered_eq]
  constructor
  · rintro ⟨res, w', hrun, hhandled⟩
    obtain ⟨hbatch, hparcels⟩ := objects_of_pass hrun
    obtain ⟨res', w'', hrun', hpassed⟩ := run_pass judge httl hbatch hrest hparcels
    cases hrun.symm.trans hrun'
    refine ⟨hbatch, hobjects.mp hparcels, fun before ie after hsplit hspoils v hv hholds =>
      hhandled.spared hpassed hsplit hspoils hv hholds, ?_⟩
    intro before p fields hclaims hadded hnot hdue
    have hie : (p.id, fields) ∈ delivered settings w :=
      List.mem_append_right _ (claimed_iff.mpr ⟨hadded, before, p, hclaims, rfl⟩)
    obtain ⟨q, hq, hid, hletter, -⟩ := hhandled.others _ hie hnot
    have hcount := Stream.pel_unique hq (claimed_pending hclaims) hid
    obtain ⟨m, hm, hmdue, hmid⟩ := hpassed.newLetter_iff.mp (hletter (by rw [hcount]; exact hdue)).1
    exact (countsAsDue_iff hie).mpr ⟨m, (mem_sortOut false).2.1 hm, hmid, hmdue⟩
  · rintro ⟨hbatch, h⟩
    obtain ⟨res, w', hrun, hpassed⟩ := run_pass judge httl hbatch hrest (hobjects.mpr h.objects)
    exact ⟨res, w', hrun, fun ie hie hholds => h.events hpassed hie hholds,
      fun ie hie hnot => h.others hpassed hie hnot⟩

def nullPython : Python :=
  { mixedBatch with loads := fun s => if s = "null" then .ok .null else mixedBatch.loads s }

/-- JSON `null` is no dictionary: its `get` raises outside the `try`, and the event
that was delivered along with it is rolled back. -/
theorem stopped_by_null :
    ¬ ∀ py settings judge w, settings.idemTtlSeconds ≠ 0 → settings.batchSize ≠ 0 → AtRest w →
      ∃ res w', (processEventStream py settings).run (answered judge) w = some (.ok res, w') ∧
        Handled py settings judge w w' := by
  intro h
  obtain ⟨res, w', hrun, -⟩ := h nullPython {} (fun _ => .ok) (queued [goodText, "null"])
    (by decide) (by decide) ⟨rfl, rfl⟩
  have hfresh : ((1, ⟨some "null"⟩) : Nat × Entry) ∈ fresh {} (queued [goodText, "null"]) := by
    decide
  obtain ⟨data, hdata⟩ := (objects_of_pass hrun).2 ⟨1, ⟨some "null"⟩, 1⟩
    (List.mem_append_left _ (List.mem_map.mpr ⟨_, hfresh, rfl⟩))
  have hnull : Mq.parseFields nullPython ⟨some "null"⟩ = .ok .null := rfl
  cases hnull.symm.trans hdata

set_option maxRecDepth 4000 in
theorem pass_handles_iff_two_entries :
    ∃ res w', (processEventStream mixedBatch {}).run (answered fun _ => .ok)
        (queued [goodText, "no json"]) = some (.ok res, w') ∧
      Handled mixedBatch {} (fun _ => .ok) (queued [goodText, "no json"]) w' := by
  refine (pass_handles_iff mixedBatch (fun _ => .ok) (by decide) ⟨rfl, rfl⟩).mpr
    ⟨by decide, ?_, ?_, ?_⟩
  · have hdelivered : delivered {} (queued [goodText, "no json"]) =
        [(0, ⟨some goodText⟩), (1, ⟨some "no json"⟩)] := by
      decide +kernel
    rw [hdelivered]
    simp only [List.forall_mem_cons]
    exact ⟨⟨_, rfl⟩, ⟨_, rfl⟩, by simp⟩
  · intro before ie after _ hspoils
    unfold spoils at hspoils
    split at hspoils <;> simp at hspoils
  · intro before p fields hclaims
    have hdue : 60000 ≤ 0 - p.deliveredAt := hclaims.due
    omega

end Digest

end EventAnalytics.Workers
