import EventAnalytics.Workers.Content
import Mathlib.Algebra.Order.BigOperators.Group.Finset

/-! How long the worker takes for a backlog. Redis and PostgreSQL are up, passes follow one
another, and events arrive in between: every entry that was waiting is dealt with after a
number of passes that depends on the backlog alone. -/
namespace EventAnalytics.Workers

open Library Redis

/-- The group has still to deal with the entry. -/
def Awaited (s : Stream) (id : Nat) : Prop := s.Undelivered id ∨ s.IsPending id

instance (s : Stream) (id : Nat) : Decidable (s.Undelivered id) :=
  inferInstanceAs (Decidable (s.delivered ≤ id ∧ id < s.added.length ∧ id ∉ s.deleted))

instance (s : Stream) (id : Nat) : Decidable (Awaited s id) :=
  inferInstanceAs (Decidable (s.Undelivered id ∨ ∃ p ∈ s.pel, p.id = id))

def awaitedIds (s : Stream) : List Nat :=
  (List.range s.added.length).filter fun id => Awaited s id

/-- The payload is an object, and the server does not reject its row. -/
structure Harmless (py : Python) (judge : EventRow → Choice) (fields : Entry) : Prop where
  object : ∃ data, Mq.parseFields py fields = .ok (.obj data)
  spares : spoils py judge fields = false

/-- What the loop of a pass, and what comes after it, may do to the stores. -/
structure Tended (w w' : World) : Prop extends w.Grows w' where
  clock : w'.clock = w.clock
  delivered : w'.stream.delivered = w.stream.delivered
  deleted : ∀ id ∈ w.stream.deleted, id ∈ w'.stream.deleted
  buried : ∀ id ∈ w'.stream.deleted, id ∈ w.stream.deleted ∨ NewLetter w w' id
  others : ∀ j, j ≠ 0 → w'.ownRows j = w.ownRows j

section Letters

variable {a b c : World} {id : Nat}

theorem newLetter_trans (hab : a.dlq <+: b.dlq) (hbc : b.dlq <+: c.dlq) :
    NewLetter a c id ↔ NewLetter a b id ∨ NewLetter b c id := by
  obtain ⟨first, hfirst⟩ := hab
  obtain ⟨second, hsecond⟩ := hbc
  have hboth : c.dlq = a.dlq ++ (first ++ second) := by
    rw [← hsecond, ← hfirst, List.append_assoc]
  unfold NewLetter
  constructor
  · rintro ⟨letters, hletters, d, hd, hid⟩
    have heq : letters = first ++ second := List.append_cancel_left (hletters.symm.trans hboth)
    rcases List.mem_append.mp (heq ▸ hd) with hd | hd
    · exact .inl ⟨first, hfirst.symm, d, hd, hid⟩
    · exact .inr ⟨second, hsecond.symm, d, hd, hid⟩
  · rintro (⟨letters, hletters, d, hd, hid⟩ | ⟨letters, hletters, d, hd, hid⟩)
    · have heq : letters = first := List.append_cancel_left (hletters.symm.trans hfirst.symm)
      exact ⟨_, hboth, d, List.mem_append_left _ (heq ▸ hd), hid⟩
    · have heq : letters = second := List.append_cancel_left (hletters.symm.trans hsecond.symm)
      exact ⟨_, hboth, d, List.mem_append_right _ (heq ▸ hd), hid⟩

end Letters

section Tended

variable {w w' : World}

theorem Tended.refl (w : World) : Tended w w :=
  ⟨.refl w, rfl, rfl, fun _ h => h, fun _ h => .inl h, fun _ _ => rfl⟩

theorem Tended.trans (a b c : World) (hab : Tended a b) (hbc : Tended b c) : Tended a c where
  toGrows := hab.toGrows.trans hbc.toGrows
  clock := hbc.clock.trans hab.clock
  delivered := hbc.delivered.trans hab.delivered
  deleted id hid := hbc.deleted id (hab.deleted id hid)
  buried id hid := by
    rw [newLetter_trans hab.dlq hbc.dlq, ← or_assoc]
    exact (hbc.buried id hid).imp_left (hab.buried id)
  others j hj := (hbc.others j hj).trans (hab.others j hj)

/-- Every command but the one that reads and the one that deletes. -/
def leavesEntries : Cmd → Bool
  | .xreadgroup .. | .xdel _ => false
  | _ => true

theorem exec_leavesEntries {i : Nat} {ch : Choice} {c : Cmd} {r : Except Exn c.Resp}
    (hleaves : leavesEntries c = true) (hexec : backend.exec i ch w c = some (r, w')) :
    w'.stream.delivered = w.stream.delivered ∧ w'.stream.deleted = w.stream.deleted := by
  by_cases hquiet : c.quiet = true
  · rw [(exec_quiet hquiet hexec).stream]
    exact ⟨rfl, rfl⟩
  cases c <;> simp only [Cmd.quiet, leavesEntries, Bool.false_eq_true, not_true_eq_false]
    at hquiet hleaves
  case insertEvent row origin =>
    rcases exec_insertEvent hexec with ⟨-, -, -, -, -, -, rfl⟩ | ⟨-, -, -, -, rfl⟩ |
      ⟨-, rfl, -⟩ | ⟨-, rfl, -⟩ <;> exact ⟨rfl, rfl⟩
  case selectEvent e =>
    rcases exec_selectEvent hexec with rfl | ⟨rfl, -⟩ <;> exact ⟨rfl, rfl⟩
  case commit => rcases exec_commit hexec with rfl | ⟨rfl, -⟩ <;> exact ⟨rfl, rfl⟩
  case rollback =>
    rw [exec_rollback hexec]
    exact ⟨rfl, rfl⟩
  all_goals
    rcases exec_stream rfl rfl rfl hexec with ⟨rfl, -⟩ | ⟨rfl, -⟩ <;> exact ⟨rfl, rfl⟩

theorem tended_exec {ch : Choice} {c : Cmd} {r : Except Exn c.Resp}
    (hleaves : leavesEntries c = true) (hexec : backend.exec 0 ch w c = some (r, w')) :
    Tended w w' := by
  obtain ⟨hdelivered, hdeleted⟩ := exec_leavesEntries hleaves hexec
  exact ⟨exec_grows hexec, exec_clock hexec, hdelivered, fun id hid => hdeleted ▸ hid,
    fun id hid => .inl (hdeleted ▸ hid), fun j hj => (exec_frame hj hexec).ownRows⟩

theorem tended_letter (w : World) (d : DeadLetter) : Tended w (w.letter d) where
  added := List.prefix_refl _
  dlq := List.prefix_append _ _
  events := List.prefix_refl _
  clock := rfl
  delivered := rfl
  deleted _ hid := List.mem_cons_of_mem _ hid
  buried id hid := by
    rcases List.mem_cons.mp hid with rfl | hid
    · exact .inr ⟨[d], rfl, d, List.mem_singleton_self d, rfl⟩
    · exact .inl hid
  others _ _ := rfl

end Tended

section Spans

variable {py : Python} {settings : Settings} {judge : EventRow → Choice}

theorem tends_of_issues {α : Type} {p : App α} (hp : p.Issues fun c => leavesEntries c = true) :
    p.Spans (answered judge) Tended :=
  hp.spans Tended.refl Tended.trans fun _ _ _ _ hc hexec => tended_exec hc hexec

theorem tends_deadLetterIfDue (id n : Nat) (data : Dict) (reason : String) (acc : Progress) :
    (deadLetterIfDue py settings id data n reason acc).Spans (answered judge) Tended := by
  intro w r w' hrun
  obtain ⟨acc', d, -, -, hletter⟩ := run_deadLetterIfDue py settings judge w acc id n data reason
  cases hrun.symm.trans hletter
  split
  · exact tended_letter w d
  · exact .refl w

theorem tends_processMessage (message : Nat × Json × Nat) (acc : Progress) :
    (processMessage py settings message acc).Spans (answered judge) Tended := by
  unfold processMessage
  split
  · rename_i id data n
    split
    · exact tends_deadLetterIfDue _ _ _ _ _
    · refine Prog.Spans.tryExcept Tended.trans ?_ fun exc => tends_deadLetterIfDue _ _ _ _ _
      refine Prog.Spans.bind Tended.trans (tends_of_issues ?_) fun persisted => ?_
      · refine (issues_persistEvent py settings _ data).mono fun c hc => ?_
        cases c <;> first | rfl | cases hc
      · cases persisted with
        | invalid => exact tends_deadLetterIfDue _ _ _ _ _
        | inserted => exact tends_of_issues trivial
        | conflict => exact tends_of_issues trivial
  · exact tends_of_issues trivial

theorem tends_processMessages (work : List (Nat × Json × Nat)) (acc : Progress) :
    (processMessages py settings work acc).Spans (answered judge) Tended := by
  induction work generalizing acc with
  | nil => exact tends_of_issues trivial
  | cons message work ih =>
      exact Prog.Spans.bind Tended.trans (tends_processMessage message acc) ih

theorem tends_session (work : List (Nat × Json × Nat)) :
    (Db.withSession (await .rollback) do
      let acc ← processMessages py settings work {}
      await .commit
      pure acc).Spans (answered judge) Tended := by
  have hrollback : (await .rollback).Spans (answered judge) Tended :=
    tends_of_issues (Prog.issues_perform rfl)
  refine Prog.Spans.bind Tended.trans (Prog.Spans.tryExcept Tended.trans ?_ fun exc => ?_)
    fun acc => Prog.Spans.bind Tended.trans hrollback fun _ => tends_of_issues trivial
  · refine Prog.Spans.bind Tended.trans (tends_processMessages work {}) fun acc => ?_
    exact Prog.Spans.bind Tended.trans (tends_of_issues (Prog.issues_perform rfl)) fun _ =>
      tends_of_issues trivial
  · exact Prog.Spans.bind Tended.trans hrollback fun _ => tends_of_issues trivial

end Spans

section Pass

variable {py : Python} {settings : Settings} {judge : EventRow → Choice} {w w' : World}

theorem AtRest.ownRows (h : AtRest w) (j : Nat) : w.ownRows j = [] := by
  simp [World.ownRows, h.uncommitted]

theorem atRest_of_ownRows (hown : ∀ j, w.ownRows j = []) (haborted : w.aborted 0 = false) :
    AtRest w := by
  refine ⟨List.eq_nil_iff_forall_not_mem.mpr fun jr hjr => ?_, haborted⟩
  have hmem : jr.2 ∈ w.ownRows jr.1 :=
    List.mem_map_of_mem (List.mem_filter.mpr ⟨hjr, by simp⟩)
  rw [hown] at hmem
  cases hmem

theorem AtRest.frame (h : AtRest w) (hframe : ∀ j, w.Frame j w') : AtRest w' :=
  atRest_of_ownRows (fun j => (hframe j).ownRows.trans (h.ownRows j))
    ((hframe 0).aborted.trans h.aborted)

theorem AtRest.redis {α : Type} {p : App α} (hp : p.Issues fun c => c.sql = false)
    (h : AtRest w) {r : Except Exn α} (hrun : p.run (answered judge) w = some (r, w')) :
    AtRest w' :=
  hp.run (fun _ _ _ _ hsql hw hexec => hw.frame (exec_frame_redis hsql hexec)) hrun h

theorem issues_ackMessages {N : Cmd → Prop} (ids : List Nat)
    (hack : N (.xack ids .ackMessages)) : (Mq.ackMessages ids).Issues N := by
  unfold Mq.ackMessages
  split
  · trivial
  · exact Prog.issues_perform hack

theorem issues_streamStats {N : Cmd → Prop} (hlen : N .xlen) (hdlq : N .xlenDlq)
    (hgroups : N .xinfoGroups) : Mq.streamStats.Issues N := by
  unfold Mq.streamStats
  refine Prog.Issues.bind (Prog.issues_perform hlen) fun _ => ?_
  refine Prog.Issues.bind (Prog.Issues.tryExcept (Prog.issues_perform hdlq) fun _ => trivial)
    fun _ => ?_
  exact Prog.Issues.bind
    (Prog.Issues.tryExcept (Prog.issues_perform hgroups) fun _ => trivial) fun _ => trivial

theorem tended_of_pass (hrest : AtRest w) {res : PassResult}
    (hrun : (processEventStream py settings).run (answered judge) w = some (.ok res, w')) :
    Tended { w with stream := inHand settings w } w' ∧ AtRest w' := by
  obtain ⟨fr, w₁, hread, hrun⟩ := Prog.run_bind_inv hrun
  rw [run_read py judge (batchSize_of_read hread), Option.some.injEq, Prod.mk.injEq] at hread
  obtain ⟨-, rfl⟩ := hread
  obtain ⟨out, w₂, hreclaim, hrun⟩ := Prog.run_bind_inv hrun
  rw [run_reclaimed, Option.some.injEq, Prod.mk.injEq] at hreclaim
  obtain ⟨-, rfl⟩ := hreclaim
  have hstart : AtRest { w with stream := inHand settings w } := ⟨hrest.uncommitted, hrest.aborted⟩
  have hstats : Mq.streamStats.Issues fun c => leavesEntries c = true :=
    issues_streamStats rfl rfl rfl
  dsimp only at hrun
  split at hrun
  · obtain ⟨stats, w₃, hstat, hret⟩ := Prog.run_bind_inv hrun
    cases hret
    exact ⟨tends_of_issues hstats hstat, hstart.redis (issues_streamStats rfl rfl rfl) hstat⟩
  · obtain ⟨acc, w₃, hsession, hrun⟩ := Prog.run_bind_inv hrun
    obtain ⟨u, w₄, hack, hrun⟩ := Prog.run_bind_inv hrun
    obtain ⟨stats, w₅, hstat, hret⟩ := Prog.run_bind_inv hrun
    cases hret
    have htended := tends_session _ hsession
    refine ⟨.trans _ _ _ htended (.trans _ _ _ ?_ (tends_of_issues hstats hstat)), ?_⟩
    · exact tends_of_issues (issues_ackMessages _ rfl) hack
    · refine AtRest.redis (issues_streamStats rfl rfl rfl) ?_ hstat
      refine AtRest.redis (issues_ackMessages _ rfl) ?_ hack
      obtain ⟨acc', w₆, -, hclose⟩ := Prog.run_bind_inv hsession
      cases hclose
      refine atRest_of_ownRows (fun j => ?_) (by simp [World.rollbackTx])
      by_cases hj : j = 0
      · subst hj
        exact World.ownRows_dropRows_self w₆ 0
      · exact (htended.others j hj).trans (hstart.ownRows j)

end Pass

section Potential

/-- How many more passes may have to look at the entry: a message is put aside at its last
delivery, and taken off the list whenever it is due. -/
def passesLeft (most : Nat) (s : Stream) (id : Nat) : Nat :=
  if s.Undelivered id then max 1 most
  else
    match s.pel.find? fun p => p.id = id with
    | some p => max 1 (most - p.deliveryCount)
    | none => 0

variable {most id : Nat} {s : Stream}

theorem not_undelivered_of_pending (h : s.IsPending id) : ¬ s.Undelivered id := by
  obtain ⟨p, hp, rfl⟩ := h
  exact fun hund => absurd (s.pel_delivered p hp) (not_lt.mpr hund.1)

theorem passesLeft_undelivered (h : s.Undelivered id) : passesLeft most s id = max 1 most :=
  if_pos h

theorem passesLeft_pending {p : Pending} (hp : p ∈ s.pel) :
    passesLeft most s p.id = max 1 (most - p.deliveryCount) := by
  have hfind : s.pel.find? (fun q => q.id = p.id) = some p := by
    cases hfind : s.pel.find? fun q => q.id = p.id with
    | none => simpa using List.find?_eq_none.mp hfind p hp
    | some q =>
        have hid : q.id = p.id := by simpa using List.find?_some hfind
        rw [Stream.pel_unique (List.mem_of_find?_eq_some hfind) hp hid]
  unfold passesLeft
  rw [if_neg (not_undelivered_of_pending ⟨p, hp, rfl⟩), hfind]

theorem passesLeft_eq_zero (h : ¬ Awaited s id) : passesLeft most s id = 0 := by
  have hfind : s.pel.find? (fun p => p.id = id) = none :=
    List.find?_eq_none.mpr fun p hp hid => h (.inr ⟨p, hp, of_decide_eq_true hid⟩)
  unfold passesLeft
  rw [if_neg fun hund => h (.inl hund), hfind]

theorem passesLeft_pos (h : Awaited s id) : 0 < passesLeft most s id := by
  rcases h with hund | ⟨p, hp, rfl⟩
  · rw [passesLeft_undelivered hund]
    omega
  · rw [passesLeft_pending hp]
    omega

theorem passesLeft_le (most : Nat) (s : Stream) (id : Nat) :
    passesLeft most s id ≤ max 1 most := by
  by_cases h : Awaited s id
  · rcases h with hund | ⟨p, hp, rfl⟩
    · rw [passesLeft_undelivered hund]
    · rw [passesLeft_pending hp]
      omega
  · rw [passesLeft_eq_zero h]
    omega

end Potential

section Progress

variable {py : Python} {settings : Settings} {judge : EventRow → Choice} {w w' : World}

theorem inHand_origin {p : Pending} (hp : p ∈ (inHand settings w).pel) :
    (w.stream.Undelivered p.id ∧ p.deliveredAt = w.clock) ∨
      ∃ q ∈ w.stream.pel, q.id = p.id ∧ q.deliveryCount ≤ p.deliveryCount ∧
        p.deliveredAt ≤ max q.deliveredAt w.clock := by
  have hread : ∀ q ∈ (afterRead settings w).stream.pel,
      (w.stream.Undelivered q.id ∧ q.deliveredAt = w.clock) ∨ q ∈ w.stream.pel := by
    intro q hq
    rcases List.mem_append.mp hq with hq | hq
    · exact .inr hq
    · obtain ⟨ie, hie, rfl⟩ := List.mem_map.mp hq
      obtain ⟨hid, hadded, hdeleted⟩ := Stream.mem_unread hie
      exact .inl ⟨⟨hid, (List.getElem?_eq_some_iff.mp hadded).1, hdeleted⟩, rfl⟩
  rcases Stream.mem_pel_xautoclaim hp with hp | ⟨before, q, hclaims, rfl⟩
  · refine (hread p hp).imp_right fun hp => ⟨p, hp, rfl, le_rfl, le_max_left _ _⟩
  · obtain ⟨after, hpel⟩ := hclaims.listed
    rcases hread q (by rw [hpel]; simp) with ⟨hund, -⟩ | hq
    · exact .inl ⟨hund, rfl⟩
    · exact .inr ⟨q, hq, rfl, Nat.le_succ _, le_max_right _ _⟩

/-- A message that is acknowledged or due in one of its deliveries leaves the list. -/
theorem Passed.settles (h : Passed py settings judge w w')
    (hclean : ∀ m ∈ parcels settings w, spoils py judge m.fields = false) {m : Parcel}
    (hm : m ∈ parcels settings w)
    (hdone : holdsEvent py judge m.fields = true ∨
      settings.eventMaxDeliveries ≤ m.deliveryCount) : ¬ w'.stream.IsPending m.id := by
  have hsort := sortOut_clean hclean
  cases hholds : holdsEvent py judge m.fields with
  | true => exact h.not_pending_of_done (by rw [hsort]; exact List.mem_filter.mpr ⟨hm, hholds⟩)
  | false =>
      have hdue := hdone.resolve_left (by simp [hholds])
      refine h.not_pending_of_letter (h.newLetter_iff.mpr ⟨m, ?_, hdue, rfl⟩)
      rw [hsort]
      exact List.mem_filter.mpr ⟨hm, by simp [hholds]⟩

theorem Tended.not_awaited (h : Tended { w with stream := inHand settings w } w') {id : Nat}
    (hid : id < (inHand settings w).delivered) (hsettled : ¬ w'.stream.IsPending id) :
    ¬ Awaited w'.stream id := by
  rintro (hund | hpending)
  · exact absurd hid (not_lt.mpr (h.delivered ▸ hund.1))
  · exact hsettled hpending

theorem front_in_hand (hcount : Mq.batchCount settings settings.batchSize ≠ 0) {p : Pending}
    {rest : List Pending} (hpel : w.stream.pel = p :: rest)
    (hdue : settings.eventClaimMinIdleMs ≤ w.clock - p.deliveredAt)
    (hpending : (inHand settings w).IsPending p.id) :
    ClaimsNow settings settings.batchSize (afterRead settings w) [] p := by
  have hlisted : (afterRead settings w).stream.pel = p :: (rest ++ (fresh settings w).map
      fun ie => ⟨ie.1, settings.eventConsumerName, w.clock, 1⟩) := by
    simp only [afterRead, Stream.xreadgroup, hpel, List.cons_append, fresh]
  refine ⟨⟨_, hlisted⟩, fun hdeleted => ?_, hdue, ?_, Nat.pos_of_ne_zero hcount⟩
  · -- a deleted entry leaves the list when it is met
    obtain ⟨k, hk⟩ := Nat.exists_eq_succ_of_ne_zero hcount
    have hsorted := (afterRead settings w).stream.pel_sorted
    rw [hlisted, List.pairwise_cons] at hsorted
    obtain ⟨q, hq, hid⟩ := hpending
    simp only [inHand, claimedStream, Stream.xautoclaim, hlisted, hk,
      show 10 * k.succ = (10 * k + 9) + 1 by omega, Stream.claimScan, if_pos hdeleted] at hq
    have hmem := (Stream.claimScan_ids _ _ _).1.mem (List.mem_map_of_mem hq)
    obtain ⟨q', hq', hid'⟩ := List.mem_map.mp hmem
    have := hsorted.1 q' hq'
    omega
  · exact Nat.mul_pos (by omega) (Nat.pos_of_ne_zero hcount)

variable (hpassed : Passed py settings judge w w')
  (htended : Tended { w with stream := inHand settings w } w')
include hpassed htended

theorem undelivered_of_pass {id : Nat} (h : w'.stream.Undelivered id) :
    w.stream.Undelivered id := by
  obtain ⟨hid, hlt, hdeleted⟩ := h
  refine ⟨?_, hpassed.added ▸ hlt, fun hdel => hdeleted (htended.deleted id hdel)⟩
  rw [htended.delivered] at hid
  exact (w.stream.delivered_le_deliveredAfter _).trans hid

theorem passesLeft_pass_le (most id : Nat) :
    passesLeft most w'.stream id ≤ passesLeft most w.stream id := by
  by_cases h : Awaited w'.stream id
  · rcases h with hund | ⟨p, hp, rfl⟩
    · rw [passesLeft_undelivered (undelivered_of_pass hpassed htended hund)]
      exact passesLeft_le _ _ _
    · rcases inHand_origin ((hpassed.pel p).mp hp).1 with ⟨hund, -⟩ | ⟨q, hq, hid, hcount, -⟩
      · rw [passesLeft_undelivered hund]
        exact passesLeft_le _ _ _
      · rw [passesLeft_pending hp, ← hid, passesLeft_pending hq]
        omega
  · rw [passesLeft_eq_zero h]
    exact Nat.zero_le _

theorem passesLeft_fresh
    (hclean : ∀ m ∈ parcels settings w, spoils py judge m.fields = false) {ie : Nat × Entry}
    (hie : ie ∈ fresh settings w) :
    passesLeft settings.eventMaxDeliveries w'.stream ie.1 <
      passesLeft settings.eventMaxDeliveries w.stream ie.1 := by
  obtain ⟨hid, hadded, hdeleted⟩ := Stream.mem_unread hie
  rw [passesLeft_undelivered ⟨hid, (List.getElem?_eq_some_iff.mp hadded).1, hdeleted⟩]
  by_cases hpending : w'.stream.IsPending ie.1
  · have hyoung : ¬ settings.eventMaxDeliveries ≤ 1 := fun hone =>
      hpassed.settles hclean (m := ⟨ie.1, ie.2, 1⟩)
        (List.mem_append_left _ (List.mem_map_of_mem hie)) (.inr hone) hpending
    obtain ⟨p, hp, hpid⟩ := hpending
    have hcount : 1 ≤ p.deliveryCount := by
      rcases inHand_count (List.mem_append_left _ hie) ((hpassed.pel p).mp hp).1 hpid with
        ⟨-, hone⟩ | ⟨_, q, _, _, hq⟩ <;> omega
    rw [← hpid, passesLeft_pending hp]
    omega
  · rw [passesLeft_eq_zero (htended.not_awaited (Stream.lt_deliveredAfter hie) hpending)]
    omega

theorem passesLeft_front (hcount : Mq.batchCount settings settings.batchSize ≠ 0)
    (hclean : ∀ m ∈ parcels settings w, spoils py judge m.fields = false) {p : Pending}
    {rest : List Pending} (hpel : w.stream.pel = p :: rest)
    (hdue : settings.eventClaimMinIdleMs ≤ w.clock - p.deliveredAt) :
    passesLeft settings.eventMaxDeliveries w'.stream p.id <
      passesLeft settings.eventMaxDeliveries w.stream p.id := by
  have hp : p ∈ w.stream.pel := by rw [hpel]; exact List.mem_cons_self
  have hdelivered : p.id < (inHand settings w).delivered :=
    (w.stream.pel_delivered p hp).trans_le (w.stream.delivered_le_deliveredAfter _)
  rw [passesLeft_pending hp]
  by_cases hpending : w'.stream.IsPending p.id
  · obtain ⟨q, hq, hid⟩ := hpending
    have hinHand := ((hpassed.pel q).mp hq).1
    have hclaims := front_in_hand hcount hpel hdue ⟨q, hinHand, hid⟩
    have hafter : q.deliveryCount = p.deliveryCount + 1 := by
      rw [Stream.pel_unique hinHand (claimed_pending hclaims) hid]
    obtain ⟨fields, hadded⟩ := hclaims.added
    have hreported := reportedCount_eq hclaims
    rw [List.countP_nil, if_pos (Nat.pos_of_ne_zero hcount)] at hreported
    have hclaimed : (p.id, fields) ∈ claimed settings w :=
      claimed_iff.mpr ⟨hadded, [], p, hclaims, rfl⟩
    have hyoung : ¬ settings.eventMaxDeliveries ≤ p.deliveryCount + 1 := by
      intro hlast
      have hm : ⟨p.id, fields, reportedCount settings w p.id⟩ ∈ parcels settings w :=
        List.mem_append_right _ (List.mem_map.mpr ⟨_, hclaimed, rfl⟩)
      exact hpassed.settles hclean hm (.inr (hreported.symm ▸ hlast)) ⟨q, hq, hid⟩
    rw [← hid, passesLeft_pending hq, hafter]
    omega
  · rw [passesLeft_eq_zero (htended.not_awaited hdelivered hpending)]
    omega

end Progress

section Intervals

structure Interval where
  arrivals : List Entry
  ms : Nat

def Interval.elapse (interval : Interval) (w : World) : World :=
  { w with
    stream := interval.arrivals.foldl (fun s e => (s.xadd e).2) w.stream
    clock := w.clock + interval.ms }

def workThrough (py : Python) (settings : Settings) (judge : EventRow → Choice) :
    List Interval → World → Option World
  | [], w => some w
  | interval :: intervals, w =>
    match (processEventStream py settings).run (answered judge) (interval.elapse w) with
    | some (.ok _, w') => workThrough py settings judge intervals w'
    | _ => none

/-- Nobody's transaction is open, and no message that is waiting can stop the worker. -/
structure Waiting (py : Python) (judge : EventRow → Choice) (w : World) : Prop extends
    AtRest w where
  stamped : ∀ p ∈ w.stream.pel, p.deliveredAt ≤ w.clock
  harmless : ∀ ie ∈ w.stream.entries, Awaited w.stream ie.1 → Harmless py judge ie.2

variable {py : Python} {settings : Settings} {judge : EventRow → Choice} {w w' : World}

theorem foldl_xadd (s : Stream) (arrivals : List Entry) :
    (arrivals.foldl (fun s e => (s.xadd e).2) s).added = s.added ++ arrivals ∧
      (arrivals.foldl (fun s e => (s.xadd e).2) s).deleted = s.deleted ∧
      (arrivals.foldl (fun s e => (s.xadd e).2) s).delivered = s.delivered ∧
      (arrivals.foldl (fun s e => (s.xadd e).2) s).pel = s.pel := by
  induction arrivals generalizing s with
  | nil => simp
  | cons e arrivals ih =>
      obtain ⟨hadded, hdeleted, hdelivered, hpel⟩ := ih (s.xadd e).2
      refine ⟨?_, hdeleted, hdelivered, hpel⟩
      rw [List.foldl_cons, hadded]
      simp [Stream.xadd]

@[simp] theorem elapse_added (interval : Interval) (w : World) :
    (interval.elapse w).stream.added = w.stream.added ++ interval.arrivals :=
  (foldl_xadd _ _).1

@[simp] theorem elapse_deleted (interval : Interval) (w : World) :
    (interval.elapse w).stream.deleted = w.stream.deleted := (foldl_xadd _ _).2.1

@[simp] theorem elapse_delivered (interval : Interval) (w : World) :
    (interval.elapse w).stream.delivered = w.stream.delivered := (foldl_xadd _ _).2.2.1

@[simp] theorem elapse_pel (interval : Interval) (w : World) :
    (interval.elapse w).stream.pel = w.stream.pel := (foldl_xadd _ _).2.2.2

theorem undelivered_elapse (interval : Interval) {id : Nat} (hid : id < w.stream.added.length) :
    (interval.elapse w).stream.Undelivered id ↔ w.stream.Undelivered id := by
  simp only [Stream.Undelivered, elapse_delivered, elapse_added, elapse_deleted,
    List.length_append]
  have : id < w.stream.added.length + interval.arrivals.length := by omega
  simp [hid, this]

theorem awaited_elapse (interval : Interval) {id : Nat} (hid : id < w.stream.added.length) :
    Awaited (interval.elapse w).stream id ↔ Awaited w.stream id := by
  unfold Awaited
  rw [undelivered_elapse interval hid, Stream.IsPending, Stream.IsPending, elapse_pel]

theorem passesLeft_elapse (interval : Interval) {id : Nat} (hid : id < w.stream.added.length)
    (most : Nat) :
    passesLeft most (interval.elapse w).stream id = passesLeft most w.stream id := by
  unfold passesLeft
  simp only [undelivered_elapse interval hid, elapse_pel]

theorem Waiting.elapse (h : Waiting py judge w) (interval : Interval)
    (harmless : ∀ e ∈ interval.arrivals, Harmless py judge e) :
    Waiting py judge (interval.elapse w) where
  uncommitted := h.uncommitted
  aborted := h.aborted
  stamped p hp := by
    rw [elapse_pel] at hp
    exact (h.stamped p hp).trans (Nat.le_add_right _ _)
  harmless ie hie hawaited := by
    obtain ⟨hadded, hdeleted⟩ := Stream.mem_entries.mp hie
    rw [elapse_added] at hadded
    rw [elapse_deleted] at hdeleted
    by_cases hid : ie.1 < w.stream.added.length
    · rw [List.getElem?_append_left hid] at hadded
      exact h.harmless ie (Stream.mem_entries.mpr ⟨hadded, hdeleted⟩)
        ((awaited_elapse interval hid).mp hawaited)
    · rw [List.getElem?_append_right (not_lt.mp hid)] at hadded
      exact harmless _ (List.mem_of_getElem? hadded)

theorem Waiting.parcel (h : Waiting py judge w) {m : Parcel} (hm : m ∈ parcels settings w) :
    Harmless py judge m.fields := by
  have hie := mem_delivered hm
  have hpresent : m.id ∉ w.stream.deleted := by
    rcases List.mem_append.mp hie with hfresh | hclaimed
    · exact (Stream.mem_unread hfresh).2.2
    · obtain ⟨-, before, p, hclaims, hid⟩ := claimed_iff.mp hclaimed
      exact fun hdeleted => hclaims.present (hid ▸ hdeleted)
  obtain ⟨p, hp, hid⟩ := delivered_pending hie
  refine h.harmless _ (Stream.mem_entries.mpr ⟨delivered_added hie, hpresent⟩) ?_
  rcases inHand_origin hp with ⟨hund, -⟩ | ⟨q, hq, hqid, -⟩
  · exact .inl (hid ▸ hund)
  · exact .inr ⟨q, hq, hqid.trans hid⟩

theorem awaited_of_pass (hpassed : Passed py settings judge w w')
    (htended : Tended { w with stream := inHand settings w } w') {id : Nat}
    (h : Awaited w'.stream id) : Awaited w.stream id := by
  by_contra hnot
  have hle := passesLeft_pass_le hpassed htended 0 id
  have hpos := @passesLeft_pos 0 _ _ h
  rw [passesLeft_eq_zero hnot] at hle
  omega

theorem Waiting.pass (h : Waiting py judge w) (hpassed : Passed py settings judge w w')
    (htended : Tended { w with stream := inHand settings w } w') (hrest : AtRest w') :
    Waiting py judge w' where
  toAtRest := hrest
  stamped p hp := by
    rw [htended.clock]
    rcases inHand_origin ((hpassed.pel p).mp hp).1 with ⟨-, hat⟩ | ⟨q, hq, -, -, hat⟩
    · exact hat.le
    · exact hat.trans (max_le (h.stamped q hq) le_rfl)
  harmless ie hie hawaited := by
    obtain ⟨hadded, hdeleted⟩ := Stream.mem_entries.mp hie
    refine h.harmless ie (Stream.mem_entries.mpr ⟨hpassed.added ▸ hadded, fun hdel => ?_⟩)
      (awaited_of_pass hpassed htended hawaited)
    exact hdeleted (htended.deleted _ hdel)

end Intervals

section Work

variable {py : Python} {settings : Settings} {judge : EventRow → Choice} {w w' : World}

/-- How much the first `n` entries have left to go. -/
def workLeft (most n : Nat) (s : Stream) : Nat := ∑ id ∈ Finset.range n, passesLeft most s id

theorem workLeft_le (most : Nat) (s : Stream) :
    workLeft most s.added.length s ≤ (awaitedIds s).length * max 1 most := by
  have hzero : ∀ id ∈ Finset.range s.added.length, id ∉ (awaitedIds s).toFinset →
      passesLeft most s id = 0 := by
    intro id hid hnot
    refine passesLeft_eq_zero fun hawaited => hnot (List.mem_toFinset.mpr ?_)
    exact List.mem_filter.mpr
      ⟨List.mem_range.mpr (Finset.mem_range.mp hid), by simpa using hawaited⟩
  have hsub : (awaitedIds s).toFinset ⊆ Finset.range s.added.length := by
    intro id hid
    exact Finset.mem_range.mpr
      (List.mem_range.mp (List.mem_of_mem_filter (List.mem_toFinset.mp hid)))
  calc workLeft most s.added.length s
      = ∑ id ∈ (awaitedIds s).toFinset, passesLeft most s id :=
        (Finset.sum_subset hsub hzero).symm
    _ ≤ (awaitedIds s).toFinset.card • max 1 most :=
        Finset.sum_le_card_nsmul _ _ _ fun id _ => passesLeft_le most s id
    _ ≤ (awaitedIds s).length * max 1 most :=
        Nat.mul_le_mul_right _ (List.toFinset_card_le _)

theorem not_awaited_of_workLeft {most n : Nat} {s : Stream} (h : workLeft most n s = 0) {id : Nat}
    (hid : id < n) : ¬ Awaited s id := by
  intro hawaited
  have hzero := Finset.sum_eq_zero_iff.mp h id (Finset.mem_range.mpr hid)
  exact (passesLeft_pos hawaited).ne' hzero

theorem workLeft_elapse (interval : Interval) (most : Nat) {n : Nat}
    (hn : n ≤ w.stream.added.length) :
    workLeft most n (interval.elapse w).stream = workLeft most n w.stream :=
  Finset.sum_congr rfl fun _ hid =>
    passesLeft_elapse interval ((Finset.mem_range.mp hid).trans_le hn) most

theorem exists_fresh (hcount : Mq.batchCount settings settings.batchSize ≠ 0) {id : Nat}
    (h : w.stream.Undelivered id) : ∃ ie ∈ fresh settings w, ie.1 ≤ id := by
  obtain ⟨hid, hlt, hdeleted⟩ := h
  have hmem : (id, w.stream.added[id]) ∈ w.stream.entries.filter fun ie =>
      w.stream.delivered ≤ ie.1 :=
    List.mem_filter.mpr
      ⟨Stream.mem_entries.mpr ⟨List.getElem?_eq_getElem hlt, hdeleted⟩, by simpa using hid⟩
  have hsorted := w.stream.entries_sorted.filter fun ie => w.stream.delivered ≤ ie.1
  obtain ⟨k, hk⟩ := Nat.exists_eq_succ_of_ne_zero hcount
  unfold fresh Stream.unread
  rw [hk]
  cases hunread : w.stream.entries.filter fun ie => w.stream.delivered ≤ ie.1 with
  | nil =>
      rw [hunread] at hmem
      cases hmem
  | cons first rest =>
      rw [hunread] at hmem hsorted
      refine ⟨first, List.mem_cons_self, ?_⟩
      rcases List.mem_cons.mp hmem with heq | hmem
      · rw [← heq]
      · exact ((List.pairwise_cons.mp hsorted).1 _ hmem).le

theorem workLeft_pass_le (hpassed : Passed py settings judge w w')
    (htended : Tended { w with stream := inHand settings w } w') (most n : Nat) :
    workLeft most n w'.stream ≤ workLeft most n w.stream :=
  Finset.sum_le_sum fun id _ => passesLeft_pass_le hpassed htended most id

theorem workLeft_pass_lt (hbatch : settings.batchSize ≠ 0) (hwaiting : Waiting py judge w)
    (hpassed : Passed py settings judge w w')
    (htended : Tended { w with stream := inHand settings w } w')
    (hdue : ∀ p ∈ w.stream.pel, settings.eventClaimMinIdleMs ≤ w.clock - p.deliveredAt)
    {n id : Nat} (hid : id < n) (hawaited : Awaited w.stream id) :
    workLeft settings.eventMaxDeliveries n w'.stream <
      workLeft settings.eventMaxDeliveries n w.stream := by
  have hcount : Mq.batchCount settings settings.batchSize ≠ 0 := by
    simp [Mq.batchCount, hbatch]
  have hclean : ∀ m ∈ parcels settings w, spoils py judge m.fields = false :=
    fun m hm => (hwaiting.parcel hm).spares
  obtain ⟨first, hfirst, hlt⟩ : ∃ first, first < n ∧
      passesLeft settings.eventMaxDeliveries w'.stream first <
        passesLeft settings.eventMaxDeliveries w.stream first := by
    rcases hawaited with hund | ⟨p, hp, rfl⟩
    · obtain ⟨ie, hie, hle⟩ := exists_fresh hcount hund
      exact ⟨ie.1, hle.trans_lt hid, passesLeft_fresh hpassed htended hclean hie⟩
    · cases hpel : w.stream.pel with
      | nil => simp [hpel] at hp
      | cons front rest =>
          have hfront : front ∈ w.stream.pel := by simp [hpel]
          refine ⟨front.id, ?_, passesLeft_front hpassed htended hcount hclean hpel
            (hdue front hfront)⟩
          have hsorted := w.stream.pel_sorted
          rw [hpel] at hsorted hp
          rcases List.mem_cons.mp hp with rfl | hp
          · exact hid
          · exact ((List.pairwise_cons.mp hsorted).1 p hp).trans hid
  exact Finset.sum_lt_sum (fun i _ => passesLeft_pass_le hpassed htended _ i)
    ⟨first, Finset.mem_range.mpr hfirst, hlt⟩

end Work

section Dealt

variable {py : Python} {settings : Settings} {judge : EventRow → Choice} {a b c w w' : World}

/-- What has become of the entries that were awaited: they still are, or they are settled as
they deserve. -/
structure Dealt (py : Python) (judge : EventRow → Choice) (w w' : World) : Prop extends
    w.Grows w' where
  settled : ∀ ie ∈ w.stream.entries, Awaited w.stream ie.1 →
    (ie ∈ w'.stream.entries ∧ Awaited w'.stream ie.1) ∨
      (holdsEvent py judge ie.2 = true ∧ Committed py w' ie.1) ∨
      (holdsEvent py judge ie.2 = false ∧ NewLetter w w' ie.1)
  letters : ∀ id fields, w.stream.added[id]? = some fields → NewLetter w w' id →
    holdsEvent py judge fields = false

theorem newLetter_of_dlq_eq (hdlq : w'.dlq = w.dlq) {id : Nat} : ¬ NewLetter w w' id := by
  rintro ⟨letters, hletters, d, hd, -⟩
  have hnil : letters = [] := List.self_eq_append_right.mp (hdlq.symm.trans hletters)
  simp [hnil] at hd

theorem Dealt.refl (w : World) : Dealt py judge w w where
  toGrows := .refl w
  settled _ hie hawaited := .inl ⟨hie, hawaited⟩
  letters _ _ _ hletter := absurd hletter (newLetter_of_dlq_eq rfl)

theorem Dealt.trans (hab : Dealt py judge a b) (hbc : Dealt py judge b c) : Dealt py judge a c where
  toGrows := hab.toGrows.trans hbc.toGrows
  settled ie hie hawaited := by
    rw [newLetter_trans hab.dlq hbc.dlq]
    rcases hab.settled ie hie hawaited with ⟨hmid, hstill⟩ | ⟨hholds, hdone⟩ | ⟨hnot, hletter⟩
    · refine (hbc.settled ie hmid hstill).imp_right fun h => h.imp_right fun h => ?_
      exact ⟨h.1, .inr h.2⟩
    · exact .inr (.inl ⟨hholds, hdone.grows hbc.toGrows⟩)
    · exact .inr (.inr ⟨hnot, .inl hletter⟩)
  letters id fields hadded hletter := by
    rcases (newLetter_trans hab.dlq hbc.dlq).mp hletter with hletter | hletter
    · exact hab.letters id fields hadded hletter
    · exact hbc.letters id fields (hab.toGrows.added? hadded) hletter

theorem dealt_elapse (interval : Interval) (w : World) : Dealt py judge w (interval.elapse w) where
  added := by
    rw [elapse_added]
    exact List.prefix_append _ _
  dlq := List.prefix_refl _
  events := List.prefix_refl _
  settled ie hie hawaited := by
    obtain ⟨hadded, hdeleted⟩ := Stream.mem_entries.mp hie
    have hid := (List.getElem?_eq_some_iff.mp hadded).1
    refine .inl ⟨Stream.mem_entries.mpr ⟨?_, ?_⟩, (awaited_elapse interval hid).mpr hawaited⟩
    · rw [elapse_added, List.getElem?_append_left hid]
      exact hadded
    · rwa [elapse_deleted]
  letters _ _ _ hletter := absurd hletter (newLetter_of_dlq_eq rfl)

theorem pending_afterRead {id : Nat} (h : w.stream.IsPending id) :
    (afterRead settings w).stream.IsPending id :=
  h.imp fun _ hp => ⟨List.mem_append_left _ hp.1, hp.2⟩

theorem Passed.fields_of_letter (h : Passed py settings judge w w')
    (hclean : ∀ m ∈ parcels settings w, spoils py judge m.fields = false) {id : Nat}
    {fields : Entry} (hadded : w.stream.added[id]? = some fields) (hletter : NewLetter w w' id) :
    holdsEvent py judge fields = false := by
  obtain ⟨m, hm, -, rfl⟩ := h.newLetter_iff.mp hletter
  rw [sortOut_clean hclean] at hm
  obtain ⟨hm, hnot⟩ := List.mem_filter.mp hm
  cases (delivered_added (mem_delivered hm)).symm.trans hadded
  simpa using hnot

theorem Passed.fields_of_done (h : Passed py settings judge w w')
    (hclean : ∀ m ∈ parcels settings w, spoils py judge m.fields = false) {m : Parcel}
    (hm : m ∈ (sortOut py judge false (parcels settings w)).1) {fields : Entry}
    (hadded : w.stream.added[m.id]? = some fields) :
    holdsEvent py judge fields = true ∧ Committed py w' m.id := by
  obtain ⟨hparcel, hholds⟩ := (mem_sortOut false).1 hm
  refine ⟨?_, committed_of_stored h hparcel hholds (h.kept hclean m hm)⟩
  cases (delivered_added (mem_delivered hparcel)).symm.trans hadded
  exact hholds

theorem Passed.in_hand_of_letter (h : Passed py settings judge w w') {id : Nat}
    (hletter : NewLetter w w' id) : (inHand settings w).IsPending id := by
  obtain ⟨m, hm, -, rfl⟩ := h.newLetter_iff.mp hletter
  exact delivered_pending (mem_delivered ((mem_sortOut false).2.1 hm))

theorem dealt_pass (hwaiting : Waiting py judge w) (hpassed : Passed py settings judge w w')
    (htended : Tended { w with stream := inHand settings w } w') : Dealt py judge w w' where
  added := by rw [hpassed.added]
  dlq := htended.dlq
  events := htended.events
  letters _ _ hadded := hpassed.fields_of_letter (fun m hm => (hwaiting.parcel hm).spares) hadded
  settled ie hie hawaited := by
    have hclean : ∀ m ∈ parcels settings w, spoils py judge m.fields = false :=
      fun m hm => (hwaiting.parcel hm).spares
    obtain ⟨hadded, hdeleted⟩ := Stream.mem_entries.mp hie
    have hkept : ¬ NewLetter w w' ie.1 → ie ∈ w'.stream.entries := by
      refine fun hletter => Stream.mem_entries.mpr ⟨by rwa [hpassed.added], fun hdel => ?_⟩
      exact (htended.buried _ hdel).elim hdeleted hletter
    by_cases hpending : (inHand settings w).IsPending ie.1
    · by_cases hstill : w'.stream.IsPending ie.1
      · exact .inl ⟨hkept fun hletter => hpassed.not_pending_of_letter hletter hstill, .inr hstill⟩
      · right
        rcases hpassed.settled hpending hstill with hletter | ⟨m, hm, hid⟩
        · exact .inr ⟨hpassed.fields_of_letter hclean hadded hletter, hletter⟩
        · rw [← hid] at hadded ⊢
          exact .inl (hpassed.fields_of_done hclean hm hadded)
    · obtain ⟨hid, hlt, -⟩ := hawaited.resolve_right fun hold =>
        hpending ((pending_afterRead hold).xautoclaim hdeleted _ _ _ _)
      have hunread : (inHand settings w).delivered ≤ ie.1 := by
        by_contra hread
        have hfresh : ie ∈ fresh settings w :=
          Stream.mem_unread_of_lt hid hadded hdeleted (not_le.mp hread)
        exact hpending (delivered_pending (List.mem_append_left _ hfresh))
      have hmem := hkept fun hletter => hpending (hpassed.in_hand_of_letter hletter)
      refine .inl ⟨hmem, .inl ⟨?_, ?_, (Stream.mem_entries.mp hmem).2⟩⟩
      · rw [htended.delivered]
        exact hunread
      · rwa [hpassed.added]

end Dealt

section Drain

variable {py : Python} {settings : Settings} {judge : EventRow → Choice} {w : World}

theorem awaited_of_workLeft {most n : Nat} {s : Stream} (h : workLeft most n s ≠ 0) :
    ∃ id < n, Awaited s id := by
  obtain ⟨id, hid, hne⟩ := Finset.exists_ne_zero_of_sum_ne_zero h
  refine ⟨id, Finset.mem_range.mp hid, ?_⟩
  by_contra hnot
  exact hne (passesLeft_eq_zero hnot)

theorem pass_after_interval (httl : settings.idemTtlSeconds ≠ 0) (hbatch : settings.batchSize ≠ 0)
    (hwaiting : Waiting py judge w) {n : Nat} (hn : n ≤ w.stream.added.length)
    {interval : Interval} (harrivals : ∀ e ∈ interval.arrivals, Harmless py judge e) :
    ∃ res w', (processEventStream py settings).run (answered judge) (interval.elapse w) =
        some (.ok res, w') ∧ Waiting py judge w' ∧ Dealt py judge w w' ∧
      workLeft settings.eventMaxDeliveries n w'.stream ≤
        workLeft settings.eventMaxDeliveries n w.stream -
          if settings.eventClaimMinIdleMs ≤ interval.ms then 1 else 0 := by
  have hlater := hwaiting.elapse interval harrivals
  obtain ⟨res, w', hrun, hpassed⟩ := run_pass judge httl hbatch hlater.toAtRest
    fun m hm => (hlater.parcel hm).object
  obtain ⟨htended, hrest⟩ := tended_of_pass hlater.toAtRest hrun
  refine ⟨res, w', hrun, hlater.pass hpassed htended hrest,
    (dealt_elapse interval w).trans (dealt_pass hlater hpassed htended), ?_⟩
  rw [← workLeft_elapse interval _ hn]
  split
  · rename_i hlong
    by_cases hzero : workLeft settings.eventMaxDeliveries n (interval.elapse w).stream = 0
    · exact (workLeft_pass_le hpassed htended _ _).trans (by omega)
    · obtain ⟨id, hid, hawaited⟩ := awaited_of_workLeft hzero
      have hdue : ∀ p ∈ (interval.elapse w).stream.pel,
          settings.eventClaimMinIdleMs ≤ (interval.elapse w).clock - p.deliveredAt := by
        intro p hp
        rw [elapse_pel] at hp
        have hstamped := hwaiting.stamped p hp
        simp only [Interval.elapse]
        omega
      have hlt := workLeft_pass_lt hbatch hlater hpassed htended hdue hid hawaited
      omega
  · exact workLeft_pass_le hpassed htended _ _

/-- The passes one after another: each long interval takes one off what is left. -/
theorem workThrough_spec (httl : settings.idemTtlSeconds ≠ 0) (hbatch : settings.batchSize ≠ 0)
    (hwaiting : Waiting py judge w) {n : Nat} (hn : n ≤ w.stream.added.length)
    {intervals : List Interval}
    (harrivals : ∀ interval ∈ intervals, ∀ e ∈ interval.arrivals, Harmless py judge e) :
    ∃ w', workThrough py settings judge intervals w = some w' ∧ Dealt py judge w w' ∧
      workLeft settings.eventMaxDeliveries n w'.stream ≤
        workLeft settings.eventMaxDeliveries n w.stream -
          intervals.countP fun interval => settings.eventClaimMinIdleMs ≤ interval.ms := by
  induction intervals generalizing w with
  | nil => exact ⟨w, rfl, .refl w, by simp⟩
  | cons interval intervals ih =>
      obtain ⟨hfirst, hrest⟩ := List.forall_mem_cons.mp harrivals
      obtain ⟨res, w₁, hrun, hwaiting₁, hdealt, hless⟩ :=
        pass_after_interval httl hbatch hwaiting hn hfirst
      obtain ⟨w', hruns, hdealt', hless'⟩ :=
        ih hwaiting₁ (hn.trans hdealt.added.length_le) hrest
      refine ⟨w', ?_, hdealt.trans hdealt', ?_⟩
      · simp only [workThrough, hrun]
        exact hruns
      · rw [List.countP_cons]
        simp only [decide_eq_true_eq]
        omega

/-- Whatever a crash has left behind: after as many passes at a distance of
`event_claim_min_idle_ms` as the entries have deliveries, every entry that was waiting is
settled, its event committed or the message in the dead-letter stream, whichever it
deserves. Meanwhile entries of the same kind may arrive. -/
theorem backlog_settled (py : Python) {settings : Settings} (judge : EventRow → Choice)
    (httl : settings.idemTtlSeconds ≠ 0) (hbatch : settings.batchSize ≠ 0) {w : World}
    (hwaiting : Waiting py judge w) {intervals : List Interval}
    (harrivals : ∀ interval ∈ intervals, ∀ e ∈ interval.arrivals, Harmless py judge e)
    (henough : (awaitedIds w.stream).length * max 1 settings.eventMaxDeliveries ≤
      intervals.countP fun interval => settings.eventClaimMinIdleMs ≤ interval.ms) :
    ∃ w', workThrough py settings judge intervals w = some w' ∧
      ∀ ie ∈ w.stream.entries, Awaited w.stream ie.1 →
        ¬ Awaited w'.stream ie.1 ∧
          (holdsEvent py judge ie.2 = true → Committed py w' ie.1) ∧
          (NewLetter w w' ie.1 ↔ holdsEvent py judge ie.2 = false) := by
  obtain ⟨w', hruns, hdealt, hless⟩ := workThrough_spec httl hbatch hwaiting le_rfl harrivals
  have hdone : workLeft settings.eventMaxDeliveries w.stream.added.length w'.stream = 0 := by
    have := workLeft_le settings.eventMaxDeliveries w.stream
    omega
  refine ⟨w', hruns, fun ie hie hawaited => ?_⟩
  have hadded := (Stream.mem_entries.mp hie).1
  have hsettled := not_awaited_of_workLeft hdone (List.getElem?_eq_some_iff.mp hadded).1
  refine ⟨hsettled, fun hholds => ?_, hdealt.letters _ _ hadded, fun hnot => ?_⟩
  all_goals rcases hdealt.settled ie hie hawaited with h | ⟨hholds', h⟩ | ⟨hnot', h⟩
  · exact absurd h.2 hsettled
  · exact h
  · simp [hholds] at hnot'
  · exact absurd h.2 hsettled
  · simp [hnot] at hholds'
  · exact h

set_option maxRecDepth 4000 in
/-- An event and a text that is not JSON, which takes all its five deliveries. -/
theorem backlog_settled_no_json :
    ∃ w', workThrough mixedBatch {} (fun _ => .ok) (List.replicate 10 ⟨[⟨some goodText⟩], 60000⟩)
        (queued [goodText, "no json"]) = some w' ∧
      Committed mixedBatch w' 0 ∧ NewLetter (queued [goodText, "no json"]) w' 1 := by
  have hentries : (queued [goodText, "no json"]).stream.entries =
      [(0, ⟨some goodText⟩), (1, ⟨some "no json"⟩)] := by decide +kernel
  have hspares : ∀ fields, spoils mixedBatch (fun _ => .ok) fields = false := by
    intro fields
    unfold spoils
    split <;> simp
  have hwaiting : Waiting mixedBatch (fun _ => .ok) (queued [goodText, "no json"]) := by
    refine ⟨⟨rfl, rfl⟩, fun p hp => absurd hp List.not_mem_nil, ?_⟩
    rw [hentries]
    simp only [List.forall_mem_cons]
    exact ⟨fun _ => ⟨⟨_, rfl⟩, hspares _⟩, fun _ => ⟨⟨_, rfl⟩, hspares _⟩, by simp⟩
  have harrivals : ∀ interval ∈ List.replicate 10 (Interval.mk [⟨some goodText⟩] 60000),
      ∀ e ∈ interval.arrivals, Harmless mixedBatch (fun _ => .ok) e := by
    intro interval hinterval e he
    rw [List.eq_of_mem_replicate hinterval] at he
    rw [List.mem_singleton.mp he]
    exact ⟨⟨_, rfl⟩, hspares _⟩
  have henough : (awaitedIds (queued [goodText, "no json"]).stream).length * max 1 5 ≤
      (List.replicate 10 (Interval.mk [⟨some goodText⟩] 60000)).countP fun interval =>
        60000 ≤ interval.ms := by
    decide +kernel
  obtain ⟨w', hruns, hsettled⟩ := backlog_settled mixedBatch (fun _ => .ok)
    (show Settings.idemTtlSeconds {} ≠ 0 by decide) (by decide) hwaiting harrivals henough
  refine ⟨w', hruns, ?_, ?_⟩
  · exact (hsettled (0, ⟨some goodText⟩) (by rw [hentries]; simp) (by decide +kernel)).2.1
      (by decide +kernel)
  · exact (hsettled (1, ⟨some "no json"⟩) (by rw [hentries]; simp) (by decide +kernel)).2.2.mpr
      (by decide +kernel)

end Drain

end EventAnalytics.Workers
