import Mathlib.Order.Lattice.Nat
import Mathlib.Data.List.Pairwise

/-! A Redis stream with one consumer group. Message ids are positions: Redis ids
are pairs of time and sequence number, of which only the order is used. Nothing
is trimmed: streams stay below their MAXLEN. -/
namespace EventAnalytics.Redis

/-- The fields of an entry, of which the code reads `data`. -/
structure Entry where
  data : Option String
  deriving DecidableEq, Repr

structure Pending where
  id : Nat
  consumer : String
  deliveredAt : Nat
  deliveryCount : Nat
  deriving DecidableEq, Repr

/-- A stream and its consumer group: every entry ever added, the ids deleted by
XDEL, the position up to which the group has delivered, and the pending list in
id order. -/
structure Stream where
  added : List Entry
  deleted : List Nat
  delivered : Nat
  pel : List Pending
  delivered_le : delivered ≤ added.length
  pel_sorted : pel.Pairwise fun p q => p.id < q.id
  pel_delivered : ∀ p ∈ pel, p.id < delivered

namespace Stream

def empty : Stream := ⟨[], [], 0, [], le_rfl, .nil, by simp⟩

def entries (s : Stream) : List (Nat × Entry) :=
  (s.added.zipIdx.map fun ei => (ei.2, ei.1)).filter fun ie => ie.1 ∉ s.deleted

def entry? (s : Stream) (id : Nat) : Option Entry := s.added[id]?

def Undelivered (s : Stream) (id : Nat) : Prop :=
  s.delivered ≤ id ∧ id < s.added.length ∧ id ∉ s.deleted

def IsPending (s : Stream) (id : Nat) : Prop := ∃ p ∈ s.pel, p.id = id

theorem pel_unique {s : Stream} {p q : Pending} (hp : p ∈ s.pel) (hq : q ∈ s.pel)
    (hid : p.id = q.id) : p = q := by
  have hnodup : (s.pel.map Pending.id).Nodup :=
    List.pairwise_map.mpr (s.pel_sorted.imp fun h => h.ne)
  exact List.inj_on_of_nodup_map hnodup hp hq hid

/-- XADD: the id is the next position. -/
def xadd (s : Stream) (e : Entry) : Nat × Stream :=
  (s.added.length,
    { s with
      added := s.added ++ [e]
      delivered_le := s.delivered_le.trans (by simp) })

def unread (s : Stream) (count : Nat) : List (Nat × Entry) :=
  (s.entries.filter fun ie => s.delivered ≤ ie.1).take count

theorem mem_entries {s : Stream} {id : Nat} {e : Entry} :
    (id, e) ∈ s.entries ↔ s.added[id]? = some e ∧ id ∉ s.deleted := by
  simp only [entries, List.mem_filter, List.mem_map, Prod.mk.injEq, decide_eq_true_eq]
  refine and_congr_left fun _ => ⟨?_, fun h => ⟨(e, id), ?_, rfl, rfl⟩⟩
  · rintro ⟨⟨e', id'⟩, hmem, rfl, rfl⟩
    exact List.mk_mem_zipIdx_iff_getElem?.mp hmem
  · exact List.mk_mem_zipIdx_iff_getElem?.mpr h

theorem entries_sorted (s : Stream) : s.entries.Pairwise fun a b => a.1 < b.1 := by
  unfold entries
  apply List.Pairwise.filter _
  rw [List.pairwise_map, ← List.pairwise_map (f := Prod.snd) (R := (· < ·)),
    List.zipIdx_map_snd]
  exact List.pairwise_lt_range'

theorem unread_sublist (s : Stream) (count : Nat) : (s.unread count).Sublist s.entries :=
  (List.take_sublist _ _).trans List.filter_sublist

theorem mem_unread {s : Stream} {count : Nat} {ie : Nat × Entry} (h : ie ∈ s.unread count) :
    s.delivered ≤ ie.1 ∧ s.added[ie.1]? = some ie.2 ∧ ie.1 ∉ s.deleted := by
  have hmem := List.mem_of_mem_take h
  rw [List.mem_filter] at hmem
  exact ⟨by simpa using hmem.2, mem_entries.mp hmem.1⟩

def deliveredAfter (s : Stream) (count : Nat) : Nat :=
  match (s.unread count).getLast? with
  | some ie => ie.1 + 1
  | none => s.delivered

theorem delivered_le_deliveredAfter (s : Stream) (count : Nat) :
    s.delivered ≤ s.deliveredAfter count := by
  unfold deliveredAfter
  split
  · rename_i ie hlast
    exact (mem_unread (List.mem_of_getLast? hlast)).1.trans (Nat.le_succ _)
  · exact le_rfl

theorem lt_deliveredAfter {s : Stream} {count : Nat} {ie : Nat × Entry}
    (h : ie ∈ s.unread count) : ie.1 < s.deliveredAfter count := by
  have hsorted := s.entries_sorted.sublist (s.unread_sublist count)
  unfold deliveredAfter
  cases hlast : (s.unread count).getLast? with
  | none => simp [List.getLast?_eq_none_iff.mp hlast] at h
  | some last =>
      obtain ⟨init, hinit⟩ := List.getLast?_eq_some_iff.mp hlast
      rw [hinit] at h hsorted
      rcases List.mem_append.mp h with h | h
      · have := (List.pairwise_append.mp hsorted).2.2 ie h last (by simp)
        simp only
        omega
      · simp_all

/-- XREADGROUP skips no entry: what it passes over was deleted. -/
theorem mem_unread_of_lt {s : Stream} {count id : Nat} {e : Entry} (hid : s.delivered ≤ id)
    (he : s.added[id]? = some e) (hdel : id ∉ s.deleted) (hlt : id < s.deliveredAfter count) :
    (id, e) ∈ s.unread count := by
  have hmem : (id, e) ∈ s.entries.filter fun ie => s.delivered ≤ ie.1 :=
    List.mem_filter.mpr ⟨mem_entries.mpr ⟨he, hdel⟩, by simpa using hid⟩
  have hsorted := s.entries_sorted.filter fun ie => s.delivered ≤ ie.1
  rw [← List.take_append_drop count (s.entries.filter _)] at hmem hsorted
  rcases List.mem_append.mp hmem with hmem | hmem
  · exact hmem
  · have hbefore := (List.pairwise_append.mp hsorted).2.2
    unfold deliveredAfter at hlt
    cases hlast : (s.unread count).getLast? with
    | none =>
        simp only [hlast] at hlt
        omega
    | some last =>
        have := hbefore last (List.mem_of_getLast? hlast) (id, e) hmem
        simp only [hlast] at hlt this
        omega

/-- XREADGROUP with id `>`: the entries join the pending list, delivered once. -/
def xreadgroup (s : Stream) (now : Nat) (consumer : String) (count : Nat) :
    List (Nat × Entry) × Stream :=
  (s.unread count,
    { s with
      delivered := s.deliveredAfter count
      pel := s.pel ++ (s.unread count).map fun ie => ⟨ie.1, consumer, now, 1⟩
      delivered_le := by
        unfold deliveredAfter
        split
        · rename_i ie hlast
          exact (List.getElem?_eq_some_iff.mp (mem_unread (List.mem_of_getLast? hlast)).2.1).1
        · exact s.delivered_le
      pel_sorted := by
        refine List.pairwise_append.mpr ⟨s.pel_sorted, ?_, ?_⟩
        · rw [List.pairwise_map]
          exact s.entries_sorted.sublist (s.unread_sublist count)
        · intro p hp q hq
          obtain ⟨ie, hie, rfl⟩ := List.mem_map.mp hq
          exact (s.pel_delivered p hp).trans_le (mem_unread hie).1
      pel_delivered := by
        intro p hp
        rcases List.mem_append.mp hp with hp | hp
        · exact (s.pel_delivered p hp).trans_le (s.delivered_le_deliveredAfter count)
        · obtain ⟨ie, hie, rfl⟩ := List.mem_map.mp hp
          exact lt_deliveredAfter hie })

/-- What one XAUTOCLAIM scan does to the pending list, and the ids it claims. The
scan examines at most `attempts` entries; an entry that was deleted from the
stream leaves the list and counts towards `count` like a claimed one. -/
def claimScan (now minIdle : Nat) (consumer : String) (deleted : List Nat) :
    Nat → Nat → List Pending → List Pending × List Nat
  | 0, _, pel => (pel, [])
  | _, 0, pel => (pel, [])
  | _, _, [] => ([], [])
  | attempts + 1, count + 1, p :: pel =>
    if p.id ∈ deleted then
      claimScan now minIdle consumer deleted attempts count pel
    else if now - p.deliveredAt < minIdle then
      let rest := claimScan now minIdle consumer deleted attempts (count + 1) pel
      (p :: rest.1, rest.2)
    else
      let rest := claimScan now minIdle consumer deleted attempts count pel
      ({ p with
          consumer := consumer
          deliveredAt := now
          deliveryCount := p.deliveryCount + 1 } :: rest.1, p.id :: rest.2)

section ClaimScan

variable {now minIdle : Nat} {consumer : String} {deleted : List Nat}

theorem claimScan_ids (attempts count : Nat) (pel : List Pending) :
    ((claimScan now minIdle consumer deleted attempts count pel).1.map Pending.id).Sublist
        (pel.map Pending.id) ∧
      ∀ p ∈ pel, p.id ∉ deleted →
        p.id ∈ (claimScan now minIdle consumer deleted attempts count pel).1.map Pending.id := by
  induction pel generalizing attempts count with
  | nil => cases attempts <;> cases count <;> simp [claimScan]
  | cons p pel ih =>
      cases attempts with
      | zero => exact ⟨.refl _, fun q hq _ => List.mem_map_of_mem hq⟩
      | succ attempts =>
          cases count with
          | zero => exact ⟨.refl _, fun q hq _ => List.mem_map_of_mem hq⟩
          | succ count =>
              unfold claimScan
              split
              · rename_i hdel
                refine ⟨(ih attempts count).1.trans (List.sublist_cons_self _ _), ?_⟩
                intro q hq hq'
                rcases List.mem_cons.mp hq with rfl | hq
                · exact absurd hdel hq'
                · exact (ih attempts count).2 q hq hq'
              · split
                · refine ⟨(ih attempts (count + 1)).1.cons_cons _, fun q hq hq' => ?_⟩
                  rcases List.mem_cons.mp hq with rfl | hq
                  · simp
                  · exact List.mem_cons_of_mem _ ((ih attempts (count + 1)).2 q hq hq')
                · refine ⟨(ih attempts count).1.cons_cons _, fun q hq hq' => ?_⟩
                  rcases List.mem_cons.mp hq with rfl | hq
                  · simp
                  · exact List.mem_cons_of_mem _ ((ih attempts count).2 q hq hq')

/-- What a scan counts towards `count`: the entry is deleted, or idle for long enough. -/
def spent (now minIdle : Nat) (deleted : List Nat) (p : Pending) : Bool :=
  p.id ∈ deleted || minIdle ≤ now - p.deliveredAt

theorem mem_claimScan {attempts count id : Nat} {pel : List Pending} :
    id ∈ (claimScan now minIdle consumer deleted attempts count pel).2 ↔
      ∃ before p after, pel = before ++ p :: after ∧ p.id = id ∧ p.id ∉ deleted ∧
        minIdle ≤ now - p.deliveredAt ∧ before.length < attempts ∧
        before.countP (spent now minIdle deleted) < count := by
  induction pel generalizing attempts count with
  | nil => cases attempts <;> cases count <;> simp [claimScan]
  | cons q pel ih =>
      have hcons : ∀ {P : List Pending → Pending → Prop},
          (∃ before p after, q :: pel = before ++ p :: after ∧ P before p) ↔
            P [] q ∨ ∃ before p after, pel = before ++ p :: after ∧ P (q :: before) p := by
        intro P
        constructor
        · rintro ⟨before, p, after, hpel, hp⟩
          cases before with
          | nil =>
              cases hpel
              exact .inl hp
          | cons q' before =>
              cases hpel
              exact .inr ⟨before, p, after, rfl, hp⟩
        · rintro (hp | ⟨before, p, after, rfl, hp⟩)
          · exact ⟨[], q, pel, rfl, hp⟩
          · exact ⟨q :: before, p, after, rfl, hp⟩
      rw [hcons]
      cases attempts with
      | zero => simp [claimScan]
      | succ attempts =>
          cases count with
          | zero => simp [claimScan]
          | succ count =>
              unfold claimScan
              split
              · rename_i hdel
                rw [ih]
                simp [spent, hdel]
              · rename_i hdel
                split
                · rename_i hrecent
                  rw [ih]
                  simp [spent, hdel, hrecent]
                · rename_i hstale
                  rw [List.mem_cons, ih]
                  have hdue : minIdle ≤ now - q.deliveredAt := not_lt.mp hstale
                  simp [spent, hdel, hdue, eq_comm]

theorem claimScan_kept {attempts count : Nat} {pel : List Pending} {p : Pending}
    (hp : p ∈ (claimScan now minIdle consumer deleted attempts count pel).1) :
    p ∈ pel ∨ p.id ∈ (claimScan now minIdle consumer deleted attempts count pel).2 := by
  induction pel generalizing attempts count with
  | nil => cases attempts <;> cases count <;> simp [claimScan] at hp
  | cons q pel ih =>
      cases attempts with
      | zero => exact .inl hp
      | succ attempts =>
          cases count with
          | zero => exact .inl hp
          | succ count =>
              unfold claimScan at hp ⊢
              split at hp <;> rename_i hdel
              · simp only [hdel, if_true]
                exact (ih hp).imp_left (List.mem_cons_of_mem q)
              · simp only [hdel, if_false]
                split at hp <;> rename_i hrecent <;> simp only [hrecent, if_true, if_false]
                · rcases List.mem_cons.mp hp with rfl | hp
                  · exact .inl List.mem_cons_self
                  · exact (ih hp).imp_left (List.mem_cons_of_mem q)
                · rcases List.mem_cons.mp hp with rfl | hp
                  · exact .inr List.mem_cons_self
                  · exact (ih hp).imp (List.mem_cons_of_mem q) (List.mem_cons_of_mem _)

theorem claimScan_split {attempts count : Nat} {before after : List Pending} {p : Pending}
    (hpresent : p.id ∉ deleted) (hdue : minIdle ≤ now - p.deliveredAt)
    (hexamined : before.length < attempts)
    (hroom : before.countP (spent now minIdle deleted) < count) :
    ∃ kept rest,
      (claimScan now minIdle consumer deleted attempts count (before ++ p :: after)).1 =
        kept ++ { p with
          consumer := consumer
          deliveredAt := now
          deliveryCount := p.deliveryCount + 1 } :: rest ∧
      kept.length = before.countP fun q => q.id ∉ deleted := by
  induction before generalizing attempts count with
  | nil =>
      obtain ⟨attempts, rfl⟩ := Nat.exists_eq_succ_of_ne_zero (Nat.ne_zero_of_lt hexamined)
      obtain ⟨count, rfl⟩ := Nat.exists_eq_succ_of_ne_zero (Nat.ne_zero_of_lt hroom)
      refine ⟨[], (claimScan now minIdle consumer deleted attempts count after).1, ?_, rfl⟩
      simp [claimScan, hpresent, not_lt.mpr hdue]
  | cons q before ih =>
      obtain ⟨attempts, rfl⟩ := Nat.exists_eq_succ_of_ne_zero (Nat.ne_zero_of_lt hexamined)
      obtain ⟨count, rfl⟩ := Nat.exists_eq_succ_of_ne_zero (Nat.ne_zero_of_lt hroom)
      have hexamined' : before.length < attempts := by simpa using hexamined
      rw [List.cons_append]
      unfold claimScan
      split
      · rename_i hdel
        have hroom' : before.countP (spent now minIdle deleted) < count := by
          simpa [spent, hdel] using hroom
        obtain ⟨kept, rest, hscan, hlength⟩ := ih hexamined' hroom'
        exact ⟨kept, rest, hscan, by simp [hlength, hdel]⟩
      · rename_i hdel
        split
        · rename_i hrecent
          have hroom' : before.countP (spent now minIdle deleted) < count + 1 := by
            simpa [spent, hdel, hrecent] using hroom
          obtain ⟨kept, rest, hscan, hlength⟩ := ih hexamined' hroom'
          exact ⟨q :: kept, rest, by simp [hscan], by simp [hlength, hdel]⟩
        · rename_i hstale
          have hroom' : before.countP (spent now minIdle deleted) < count := by
            simpa [spent, hdel, not_lt.mp hstale] using hroom
          obtain ⟨kept, rest, hscan, hlength⟩ := ih hexamined' hroom'
          refine ⟨⟨q.id, consumer, now, q.deliveryCount + 1⟩ :: kept, rest, ?_, ?_⟩
          · simp only [hscan, List.cons_append]
          · simp [hlength, hdel]

end ClaimScan

/-- XAUTOCLAIM from `0-0`; the returned cursor is dropped by the only caller. -/
def xautoclaim (s : Stream) (now minIdle : Nat) (consumer : String) (count : Nat) :
    List (Nat × Entry) × Stream :=
  let scan := claimScan now minIdle consumer s.deleted (10 * count) count s.pel
  (scan.2.filterMap fun id => (s.entry? id).map fun e => (id, e),
    { s with
      pel := scan.1
      pel_sorted := by
        rw [← List.pairwise_map (f := Pending.id) (R := (· < ·))]
        exact (List.pairwise_map.mpr s.pel_sorted).sublist (claimScan_ids _ _ _).1
      pel_delivered := by
        intro p hp
        have hmem := (claimScan_ids (10 * count) count s.pel).1.mem (List.mem_map_of_mem hp)
        obtain ⟨q, hq, hqp⟩ := List.mem_map.mp hmem
        exact hqp ▸ s.pel_delivered q hq })

/-- The entry behind `before` in the pending list is one that XAUTOCLAIM claims. -/
structure Claims (s : Stream) (now minIdle count : Nat) (before : List Pending)
    (p : Pending) : Prop where
  listed : ∃ after, s.pel = before ++ p :: after
  present : p.id ∉ s.deleted
  due : minIdle ≤ now - p.deliveredAt
  examined : before.length < 10 * count
  room : before.countP (spent now minIdle s.deleted) < count

theorem mem_xautoclaim {s : Stream} {now minIdle count : Nat} {consumer : String}
    {ie : Nat × Entry} :
    ie ∈ (s.xautoclaim now minIdle consumer count).1 ↔
      s.added[ie.1]? = some ie.2 ∧
        ∃ before p, s.Claims now minIdle count before p ∧ p.id = ie.1 := by
  simp only [xautoclaim, List.mem_filterMap, Option.map_eq_some_iff, entry?]
  constructor
  · rintro ⟨id, hid, e, he, rfl⟩
    obtain ⟨before, p, after, hpel, hp, hpresent, hdue, hexamined, hroom⟩ := mem_claimScan.mp hid
    exact ⟨he, before, p, ⟨⟨after, hpel⟩, hpresent, hdue, hexamined, hroom⟩, hp⟩
  · rintro ⟨he, before, p, ⟨⟨after, hpel⟩, hpresent, hdue, hexamined, hroom⟩, hp⟩
    exact ⟨ie.1, mem_claimScan.mpr
      ⟨before, p, after, hpel, hp, hpresent, hdue, hexamined, hroom⟩, ie.2, he, rfl⟩

theorem Claims.added {s : Stream} {now minIdle count : Nat} {before : List Pending}
    {p : Pending} (h : s.Claims now minIdle count before p) : ∃ e, s.added[p.id]? = some e := by
  obtain ⟨after, hpel⟩ := h.listed
  have hlt : p.id < s.added.length :=
    (s.pel_delivered p (by simp [hpel])).trans_le s.delivered_le
  exact ⟨_, List.getElem?_eq_getElem hlt⟩

theorem Claims.kept {s : Stream} {now minIdle count : Nat} {before : List Pending}
    {p : Pending} (h : s.Claims now minIdle count before p) (consumer : String) :
    ∃ kept rest, (s.xautoclaim now minIdle consumer count).2.pel =
        kept ++ ⟨p.id, consumer, now, p.deliveryCount + 1⟩ :: rest ∧
      kept.length = before.countP fun q => q.id ∉ s.deleted := by
  obtain ⟨after, hpel⟩ := h.listed
  simp only [xautoclaim, hpel]
  exact claimScan_split h.present h.due h.examined h.room

theorem mem_pel_xautoclaim {s : Stream} {now minIdle count : Nat} {consumer : String}
    {p : Pending} (hp : p ∈ (s.xautoclaim now minIdle consumer count).2.pel) :
    p ∈ s.pel ∨ ∃ before q, s.Claims now minIdle count before q ∧
      p = ⟨q.id, consumer, now, q.deliveryCount + 1⟩ := by
  rcases claimScan_kept hp with hp | hid
  · exact .inl hp
  · obtain ⟨before, q, after, hpel, hq, hpresent, hdue, hexamined, hroom⟩ := mem_claimScan.mp hid
    have hclaims : s.Claims now minIdle count before q :=
      ⟨⟨after, hpel⟩, hpresent, hdue, hexamined, hroom⟩
    obtain ⟨kept, rest, hafter, -⟩ := hclaims.kept consumer
    refine .inr ⟨before, q, hclaims, pel_unique hp ?_ hq.symm⟩
    rw [hafter]
    exact List.mem_append_right _ List.mem_cons_self

theorem IsPending.xautoclaim {s : Stream} {id : Nat} (h : s.IsPending id) (hid : id ∉ s.deleted)
    (now minIdle : Nat) (consumer : String) (count : Nat) :
    (s.xautoclaim now minIdle consumer count).2.IsPending id := by
  obtain ⟨p, hp, rfl⟩ := h
  exact List.mem_map.mp ((claimScan_ids (10 * count) count s.pel).2 p hp hid)

/-- XPENDING - + count: ids with their delivery counts. -/
def xpendingRange (s : Stream) (count : Nat) : List (Nat × Nat) :=
  (s.pel.take count).map fun p => (p.id, p.deliveryCount)

def xack (s : Stream) (ids : List Nat) : Stream :=
  { s with
    pel := s.pel.filter fun p => p.id ∉ ids
    pel_sorted := s.pel_sorted.filter _
    pel_delivered := fun p hp => s.pel_delivered p (List.mem_of_mem_filter hp) }

def xdel (s : Stream) (id : Nat) : Stream :=
  { s with deleted := id :: s.deleted }

end Stream

end EventAnalytics.Redis
