import EventAnalytics.Redis.Stream

/-! `XADD ... MAXLEN ~`: a stream whose oldest entries are removed when it is added to, and
what its group can tell of it. -/
namespace EventAnalytics.Redis.Stream

def trim (s : Stream) (n : Nat) : Stream :=
  { s with deleted := s.deleted ++ (s.entries.take n).map Prod.fst }

/-- `MAXLEN ~ maxlen`: as many entries as the server likes, but never so many that fewer
than `maxlen` are left. -/
def trimTo (s : Stream) (maxlen n : Nat) : Stream :=
  s.trim (min n (s.entries.length - maxlen))

/-- Delivered and no longer pending: the group has done with the entry. -/
def Settled (s : Stream) (id : Nat) : Prop :=
  id < s.delivered ∧ ¬ s.IsPending id

instance (s : Stream) (id : Nat) : Decidable (s.Settled id) :=
  inferInstanceAs (Decidable (id < s.delivered ∧ ¬ ∃ p ∈ s.pel, p.id = id))

def behind (s : Stream) (id : Nat) : Nat :=
  s.entries.countP fun ie => id < ie.1

/-- After the next `XADD` no unsettled entry has `maxlen` entries behind it. -/
def uncrowded (s : Stream) (maxlen : Nat) : Bool :=
  decide (0 < maxlen) &&
    s.entries.all fun ie => decide (s.Settled ie.1) || s.behind ie.1 + 1 < maxlen

/-- The stream `s` is `u`, but for settled entries that are removed from it. -/
structure Trimmed (s u : Stream) : Prop where
  added : s.added = u.added
  delivered : s.delivered = u.delivered
  pel : s.pel = u.pel
  kept : ∀ id ∈ u.deleted, id ∈ s.deleted
  settled : ∀ id ∈ s.deleted, id ∈ u.deleted ∨ u.Settled id

section Trimmed

variable {s u : Stream}

theorem Trimmed.refl (s : Stream) : Trimmed s s :=
  ⟨rfl, rfl, rfl, fun _ h => h, fun _ h => .inl h⟩

theorem Trimmed.deleted_iff (h : Trimmed s u) {id : Nat} (hid : ¬ u.Settled id) :
    id ∈ s.deleted ↔ id ∈ u.deleted :=
  ⟨fun hs => (h.settled id hs).resolve_right hid, h.kept id⟩

theorem not_settled_of_delivered_le {id : Nat} (hid : u.delivered ≤ id) : ¬ u.Settled id :=
  fun h => absurd h.1 (not_lt.mpr hid)

/-- No settled entry is handed out again, and so none is missed. -/
theorem Trimmed.unread (h : Trimmed s u) (count : Nat) : s.unread count = u.unread count := by
  have hfilter : (s.entries.filter fun ie => s.delivered ≤ ie.1) =
      u.entries.filter fun ie => u.delivered ≤ ie.1 := by
    unfold entries
    rw [h.added, h.delivered, List.filter_filter, List.filter_filter]
    apply List.filter_congr
    intro ie _
    by_cases hid : u.delivered ≤ ie.1
    · simp [hid, h.deleted_iff (not_settled_of_delivered_le hid)]
    · simp [hid]
  unfold Stream.unread
  rw [hfilter]

theorem Trimmed.forward (h : Trimmed s u) {s' u' : Stream} (hadded : s'.added = u'.added)
    (hdelivered : s'.delivered = u'.delivered) (hpel : s'.pel = u'.pel)
    (hdeleted : s'.deleted = s.deleted) (hdeleted' : u'.deleted = u.deleted)
    (hsettled : ∀ id, u.Settled id → u'.Settled id) : Trimmed s' u' where
  added := hadded
  delivered := hdelivered
  pel := hpel
  kept id hid := by
    rw [hdeleted]
    exact h.kept id (hdeleted' ▸ hid)
  settled id hid := by
    rw [hdeleted] at hid
    rw [hdeleted']
    exact (h.settled id hid).imp_right (hsettled id)

theorem Trimmed.xadd (h : Trimmed s u) (e : Entry) :
    (s.xadd e).1 = (u.xadd e).1 ∧ Trimmed (s.xadd e).2 (u.xadd e).2 := by
  have hadded : (s.xadd e).2.added = (u.xadd e).2.added := by simp [Stream.xadd, h.added]
  exact ⟨congrArg List.length h.added,
    h.forward hadded h.delivered h.pel rfl rfl fun _ hid => hid⟩

theorem Trimmed.xreadgroup (h : Trimmed s u) (now : Nat) (consumer : String) (count : Nat) :
    (s.xreadgroup now consumer count).1 = (u.xreadgroup now consumer count).1 ∧
      Trimmed (s.xreadgroup now consumer count).2 (u.xreadgroup now consumer count).2 := by
  have hunread := h.unread count
  have hafter : s.deliveredAfter count = u.deliveredAfter count := by
    unfold deliveredAfter
    rw [hunread, h.delivered]
  refine ⟨hunread, h.forward h.added hafter ?_ rfl rfl fun id hid => ?_⟩
  · simp only [Stream.xreadgroup, hunread, h.pel]
  · refine ⟨hid.1.trans_le (u.delivered_le_deliveredAfter count), ?_⟩
    rintro ⟨p, hp, rfl⟩
    rcases List.mem_append.mp hp with hp | hp
    · exact hid.2 ⟨p, hp, rfl⟩
    · obtain ⟨ie, hie, rfl⟩ := List.mem_map.mp hp
      exact absurd hid.1 (not_lt.mpr (mem_unread hie).1)

theorem claimScan_congr {now minIdle : Nat} {consumer : String} {deleted deleted' : List Nat}
    {pel : List Pending} (h : ∀ p ∈ pel, p.id ∈ deleted ↔ p.id ∈ deleted')
    (attempts count : Nat) :
    claimScan now minIdle consumer deleted attempts count pel =
      claimScan now minIdle consumer deleted' attempts count pel := by
  induction pel generalizing attempts count with
  | nil => cases attempts <;> cases count <;> rfl
  | cons p pel ih =>
      have hrest : ∀ q ∈ pel, q.id ∈ deleted ↔ q.id ∈ deleted' :=
        fun q hq => h q (List.mem_cons_of_mem _ hq)
      cases attempts with
      | zero => rfl
      | succ attempts =>
          cases count with
          | zero => rfl
          | succ count => simp only [claimScan, h p List.mem_cons_self, ih hrest]

theorem Trimmed.xautoclaim (h : Trimmed s u) (now minIdle : Nat) (consumer : String)
    (count : Nat) :
    (s.xautoclaim now minIdle consumer count).1 = (u.xautoclaim now minIdle consumer count).1 ∧
      Trimmed (s.xautoclaim now minIdle consumer count).2
        (u.xautoclaim now minIdle consumer count).2 := by
  have hscan : claimScan now minIdle consumer s.deleted (10 * count) count s.pel =
      claimScan now minIdle consumer u.deleted (10 * count) count u.pel := by
    rw [h.pel]
    exact claimScan_congr (fun p hp => h.deleted_iff fun hid => hid.2 ⟨p, hp, rfl⟩) _ _
  refine ⟨?_, h.forward h.added h.delivered ?_ rfl rfl fun id hid => ⟨hid.1, ?_⟩⟩
  · simp only [Stream.xautoclaim, hscan, entry?, h.added]
  · simp only [Stream.xautoclaim, hscan]
  · rintro ⟨p, hp, rfl⟩
    have hmem := (claimScan_ids (10 * count) count u.pel).1.mem (List.mem_map_of_mem hp)
    obtain ⟨q, hq, hqp⟩ := List.mem_map.mp hmem
    exact hid.2 ⟨q, hq, hqp⟩

theorem Trimmed.xack (h : Trimmed s u) (ids : List Nat) : Trimmed (s.xack ids) (u.xack ids) := by
  refine h.forward h.added h.delivered ?_ rfl rfl fun id hid => ⟨hid.1, ?_⟩
  · simp only [Stream.xack, h.pel]
  · rintro ⟨p, hp, rfl⟩
    exact hid.2 ⟨p, List.mem_of_mem_filter hp, rfl⟩

theorem Trimmed.xdel (h : Trimmed s u) (id : Nat) : Trimmed (s.xdel id) (u.xdel id) where
  added := h.added
  delivered := h.delivered
  pel := h.pel
  kept id' hid' := by
    rcases List.mem_cons.mp hid' with rfl | hid'
    · exact List.mem_cons_self
    · exact List.mem_cons_of_mem _ (h.kept id' hid')
  settled id' hid' := by
    rcases List.mem_cons.mp hid' with rfl | hid'
    · exact .inl List.mem_cons_self
    · exact (h.settled id' hid').imp_left (List.mem_cons_of_mem _)

theorem Trimmed.trim (h : Trimmed s u) {n : Nat}
    (hsettled : ∀ id ∈ (s.entries.take n).map Prod.fst, s.Settled id) :
    Trimmed (s.trim n) u where
  added := h.added
  delivered := h.delivered
  pel := h.pel
  kept id hid := List.mem_append_left _ (h.kept id hid)
  settled id hid := by
    rcases List.mem_append.mp hid with hid | hid
    · exact h.settled id hid
    · have hs := hsettled id hid
      right
      rwa [Settled, IsPending, h.delivered, h.pel] at hs

end Trimmed

theorem le_behind_of_trimTo {s : Stream} {maxlen n : Nat} {ie : Nat × Entry}
    (hie : ie ∈ s.entries.take (min n (s.entries.length - maxlen))) : maxlen ≤ s.behind ie.1 := by
  have hsorted := s.entries_sorted
  rw [← List.take_append_drop (min n (s.entries.length - maxlen)) s.entries] at hsorted
  obtain ⟨-, -, hbefore⟩ := List.pairwise_append.mp hsorted
  have hlater : (s.entries.drop (min n (s.entries.length - maxlen))).countP
      (fun later => ie.1 < later.1) = s.entries.length - min n (s.entries.length - maxlen) := by
    rw [List.countP_eq_length.mpr fun later hmem => decide_eq_true (hbefore ie hie later hmem),
      List.length_drop]
  have hle : s.entries.length - min n (s.entries.length - maxlen) ≤ s.behind ie.1 := by
    rw [← hlater]
    exact (List.drop_sublist _ _).countP_le
  have hpos := List.length_pos_of_mem hie
  rw [List.length_take] at hpos
  omega

theorem entries_xadd (s : Stream) (e : Entry) :
    (s.xadd e).2.entries =
      s.entries ++ [(s.added.length, e)].filter fun ie => ie.1 ∉ s.deleted := by
  simp only [entries, xadd, List.zipIdx_append, List.map_append, List.filter_append,
    List.zipIdx_singleton, List.map_cons, List.map_nil, Nat.zero_add]
  rfl

theorem behind_xadd_le (s : Stream) (e : Entry) (id : Nat) :
    (s.xadd e).2.behind id ≤ s.behind id + 1 := by
  rw [behind, entries_xadd, List.countP_append]
  exact Nat.add_le_add_left (List.countP_le_length.trans (List.length_filter_le _ _)) _

theorem settled_of_uncrowded {s : Stream} {maxlen : Nat} {e : Entry} {ie : Nat × Entry}
    (h : s.uncrowded maxlen = true) (hie : ie ∈ (s.xadd e).2.entries)
    (hbehind : maxlen ≤ (s.xadd e).2.behind ie.1) : s.Settled ie.1 := by
  simp only [uncrowded, Bool.and_eq_true, List.all_eq_true, Bool.or_eq_true,
    decide_eq_true_eq] at h
  rw [entries_xadd, List.mem_append, List.mem_filter, List.mem_singleton] at hie
  rcases hie with hold | ⟨rfl, -⟩
  · refine (h.2 ie hold).resolve_right fun hroom => ?_
    exact absurd (hbehind.trans (s.behind_xadd_le e ie.1)) (by omega)
  · have hnone : (s.xadd e).2.behind s.added.length = 0 := by
      refine List.countP_eq_zero.mpr fun later hlater => ?_
      have hlt := (List.getElem?_eq_some_iff.mp (mem_entries.mp hlater).1).1
      simp only [xadd, List.length_append, List.length_singleton] at hlt
      simpa using Nat.lt_succ_iff.mp hlt
    exact absurd (hnone ▸ hbehind) (by omega)

end EventAnalytics.Redis.Stream
