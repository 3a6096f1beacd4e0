import EventAnalytics.Library.Atomic
import EventAnalytics.Workers.Message
import EventAnalytics.Workers.NoLoss

/-! What a reclaim returns. Two queries over the pending list are joined by id:
the claim skips entries that are too recent, the listing of delivery counts does
not, and each of them stops somewhere. -/
namespace EventAnalytics.Workers

open Library Library.Discipline Redis

/-- A reclaim whose calls succeed, with no other client between them. -/
def reclaim (py : Python) (settings : Settings) (count : Nat) (w : World) :
    Option (Except Exn (List (Nat × Json × Nat)) × World) :=
  (Mq.reclaimStaleMessages py settings count).run (effect 0) w

def claimedStream (settings : Settings) (count : Nat) (w : World) : Stream :=
  (w.stream.xautoclaim w.clock settings.eventClaimMinIdleMs settings.eventConsumerName
    (Mq.batchCount settings count)).2

def ClaimsNow (settings : Settings) (count : Nat) (w : World) : List Pending → Pending → Prop :=
  w.stream.Claims w.clock settings.eventClaimMinIdleMs (Mq.batchCount settings count)

section Join

variable {py : Python} {settings : Settings} {count : Nat} {w w' : World}
  {out : List (Nat × Json × Nat)}

theorem parseEntries_cons (id : Nat) (fields : Entry) (entries : List (Nat × Entry)) :
    Mq.parseEntries py ((id, fields) :: entries) =
      (Mq.parseFields py fields).bind fun data =>
        (Mq.parseEntries py entries).map fun messages => (id, data) :: messages := by
  rw [Mq.parseEntries]
  cases Mq.parseFields py fields <;> cases Mq.parseEntries py entries <;> rfl

theorem parseEntries_isOk {entries : List (Nat × Entry)} :
    (∃ messages, Mq.parseEntries py entries = .ok messages) ↔
      ∀ ie ∈ entries, ∃ payload, Mq.parseFields py ie.2 = .ok payload := by
  induction entries with
  | nil => simp [Mq.parseEntries]
  | cons ie entries ih =>
      obtain ⟨id, fields⟩ := ie
      rw [List.forall_mem_cons, ← ih, parseEntries_cons]
      cases Mq.parseFields py fields <;> cases Mq.parseEntries py entries <;>
        simp [Except.bind, Except.map]

theorem parseEntries_cons_ok {id : Nat} {fields : Entry} {entries : List (Nat × Entry)}
    {messages : List (Nat × Json)}
    (h : Mq.parseEntries py ((id, fields) :: entries) = .ok messages) :
    ∃ data rest, Mq.parseFields py fields = .ok data ∧ Mq.parseEntries py entries = .ok rest ∧
      messages = (id, data) :: rest := by
  rw [parseEntries_cons] at h
  cases hparse : Mq.parseFields py fields with
  | error e => simp [hparse, Except.bind] at h
  | ok data =>
      cases hrest : Mq.parseEntries py entries with
      | error e => simp [hparse, hrest, Except.bind, Except.map] at h
      | ok rest =>
          simp only [hparse, hrest, Except.bind, Except.map, Except.ok.injEq] at h
          exact ⟨data, rest, rfl, rfl, h.symm⟩

theorem parseEntries_mem {entries : List (Nat × Entry)} {messages : List (Nat × Json)}
    (h : Mq.parseEntries py entries = .ok messages) {id : Nat} {fields : Entry} {data : Json}
    (hmem : (id, fields) ∈ entries) (hdata : Mq.parseFields py fields = .ok data) :
    (id, data) ∈ messages := by
  induction entries generalizing messages with
  | nil => cases hmem
  | cons ie entries ih =>
      obtain ⟨data', rest, hparse, hrest, rfl⟩ := parseEntries_cons_ok h
      rcases List.mem_cons.mp hmem with heq | hmem
      · cases heq
        cases hparse.symm.trans hdata
        exact List.mem_cons_self
      · exact List.mem_cons_of_mem _ (ih hrest hmem)

theorem run_reclaim :
    reclaim py settings count w =
      some ((Mq.parseEntries py (w.stream.xautoclaim w.clock settings.eventClaimMinIdleMs
          settings.eventConsumerName (Mq.batchCount settings count)).1).map fun out =>
            out.map fun md => (md.1, md.2, Mq.deliveryCountOf
              ((claimedStream settings count w).xpendingRange (Mq.batchCount settings count))
              md.1),
        { w with stream := claimedStream settings count w }) := by
  unfold reclaim Mq.reclaimStaleMessages
  cases hparse : Mq.parseEntries py (w.stream.xautoclaim w.clock settings.eventClaimMinIdleMs
      settings.eventConsumerName (Mq.batchCount settings count)).1 <;>
    simp [Prog.run, Prog.perform, Prog.ofExcept, Prog.tryExcept, effect, hparse, claimedStream,
      Except.map]

theorem reclaim_world {r : Except Exn (List (Nat × Json × Nat))}
    (hrun : reclaim py settings count w = some (r, w')) :
    w' = { w with stream := claimedStream settings count w } := by
  rw [run_reclaim, Option.some.injEq] at hrun
  exact (congrArg Prod.snd hrun).symm

theorem deliveryCountOf_xpendingRange {s : Stream} {kept rest : List Pending} {p : Pending}
    (hpel : s.pel = kept ++ p :: rest) (n : Nat) :
    Mq.deliveryCountOf (s.xpendingRange n) p.id =
      if kept.length < n then p.deliveryCount else 1 := by
  have hsorted := s.pel_sorted
  rw [hpel, List.pairwise_append, List.pairwise_cons] at hsorted
  obtain ⟨-, ⟨hlater, -⟩, hearlier⟩ := hsorted
  have hkept : ∀ n, ((kept.take n).map fun q => (q.id, q.deliveryCount)).reverse.lookup p.id =
      none := by
    intro n
    rw [List.lookup_eq_none_iff]
    intro kv hkv
    obtain ⟨q, hq, rfl⟩ := List.mem_map.mp (List.mem_reverse.mp hkv)
    have hlt := hearlier q (List.mem_of_mem_take hq) p List.mem_cons_self
    simpa using hlt.ne'
  unfold Mq.deliveryCountOf Stream.xpendingRange
  rw [hpel]
  split
  · rename_i hlt
    obtain ⟨m, hm⟩ := Nat.exists_eq_add_of_lt hlt
    have htake : (kept ++ p :: rest).take n = kept ++ p :: rest.take m := by
      rw [hm, List.take_append]
      simp [List.take_of_length_le (show kept.length ≤ kept.length + m + 1 by omega),
        show kept.length + m + 1 - kept.length = m + 1 by omega]
    have hrest : ((rest.take m).map fun q => (q.id, q.deliveryCount)).reverse.lookup p.id =
        none := by
      rw [List.lookup_eq_none_iff]
      intro kv hkv
      obtain ⟨q, hq, rfl⟩ := List.mem_map.mp (List.mem_reverse.mp hkv)
      simpa using (hlater q (List.mem_of_mem_take hq)).ne
    rw [htake, List.map_append, List.map_cons, List.reverse_append, List.reverse_cons,
      List.lookup_append, List.lookup_append, hrest]
    simp
  · rename_i hge
    have htake : (kept ++ p :: rest).take n = kept.take n :=
      List.take_append_of_le_length (not_lt.mp hge)
    rw [htake, hkept]
    rfl

/-- `json` decodes the payload of every entry that is claimed, or says that it is not JSON. -/
def Readable (py : Python) (settings : Settings) (count : Nat) (w : World) : Prop :=
  ∀ before p fields, ClaimsNow settings count w before p →
    w.stream.added[p.id]? = some fields → ∃ payload, Mq.parseFields py fields = .ok payload

theorem readable_iff : Readable py settings count w ↔
    ∃ out, reclaim py settings count w =
      some (.ok out, { w with stream := claimedStream settings count w }) := by
  have hrun : (∃ out, reclaim py settings count w =
      some (.ok out, { w with stream := claimedStream settings count w })) ↔
      ∃ messages, Mq.parseEntries py (w.stream.xautoclaim w.clock settings.eventClaimMinIdleMs
        settings.eventConsumerName (Mq.batchCount settings count)).1 = .ok messages := by
    rw [run_reclaim]
    cases Mq.parseEntries py (w.stream.xautoclaim w.clock settings.eventClaimMinIdleMs
      settings.eventConsumerName (Mq.batchCount settings count)).1 <;> simp [Except.map]
  rw [hrun, parseEntries_isOk]
  constructor
  · intro h ie hie
    obtain ⟨hadded, before, p, hclaims, hid⟩ := Stream.mem_xautoclaim.mp hie
    exact h before p ie.2 hclaims (by rw [hid]; exact hadded)
  · intro h before p fields hclaims hadded
    exact h (p.id, fields) (Stream.mem_xautoclaim.mpr ⟨hadded, before, p, hclaims, rfl⟩)

theorem deliveryCountOf_claims {before : List Pending} {p : Pending}
    (hclaims : ClaimsNow settings count w before p) :
    Mq.deliveryCountOf
        ((claimedStream settings count w).xpendingRange (Mq.batchCount settings count)) p.id =
      if before.countP (fun q => q.id ∉ w.stream.deleted) < Mq.batchCount settings count
        then p.deliveryCount + 1 else 1 := by
  obtain ⟨kept, rest, hpel, hkept⟩ := hclaims.kept settings.eventConsumerName
  rw [← hkept]
  exact deliveryCountOf_xpendingRange hpel _

theorem mem_reclaim (hrun : reclaim py settings count w = some (.ok out, w'))
    {m : Nat × Json × Nat} :
    m ∈ out ↔ ∃ before p fields, ClaimsNow settings count w before p ∧ m.1 = p.id ∧
      w.stream.added[p.id]? = some fields ∧ Mq.parseFields py fields = .ok m.2.1 ∧
      m.2.2 = if before.countP (fun q => q.id ∉ w.stream.deleted) < Mq.batchCount settings count
        then p.deliveryCount + 1 else 1 := by
  rw [run_reclaim] at hrun
  simp only [Option.some.injEq, Prod.mk.injEq] at hrun
  obtain ⟨hout, -⟩ := hrun
  cases hparse : Mq.parseEntries py (w.stream.xautoclaim w.clock settings.eventClaimMinIdleMs
      settings.eventConsumerName (Mq.batchCount settings count)).1 with
  | error e => simp [hparse, Except.map] at hout
  | ok messages =>
      simp only [hparse, Except.map, Except.ok.injEq] at hout
      subst hout
      rw [List.mem_map]
      constructor
      · rintro ⟨md, hmd, rfl⟩
        obtain ⟨fields, hmem, hfields⟩ := mem_parseEntries hparse hmd
        obtain ⟨hadded, before, p, hclaims, hid⟩ := Stream.mem_xautoclaim.mp hmem
        refine ⟨before, p, fields, hclaims, hid.symm, by rw [hid]; exact hadded, hfields, ?_⟩
        rw [← deliveryCountOf_claims hclaims, hid]
      · rintro ⟨before, p, fields, hclaims, hid, hadded, hfields, hn⟩
        have hmem : (p.id, fields) ∈ (w.stream.xautoclaim w.clock settings.eventClaimMinIdleMs
            settings.eventConsumerName (Mq.batchCount settings count)).1 :=
          Stream.mem_xautoclaim.mpr ⟨hadded, before, p, hclaims, rfl⟩
        refine ⟨(p.id, m.2.1), parseEntries_mem hparse hmem hfields, ?_⟩
        rw [deliveryCountOf_claims hclaims, ← hn, ← hid]

theorem mem_of_claims (hrun : reclaim py settings count w = some (.ok out, w'))
    {before : List Pending} {p : Pending} {fields : Entry} {payload : Json}
    (hclaims : ClaimsNow settings count w before p) (hadded : w.stream.added[p.id]? = some fields)
    (hparse : Mq.parseFields py fields = .ok payload) :
    (p.id, payload, if before.countP (fun q => q.id ∉ w.stream.deleted) <
      Mq.batchCount settings count then p.deliveryCount + 1 else 1) ∈ out :=
  (mem_reclaim hrun).mpr ⟨before, p, fields, hclaims, rfl, hadded, hparse, rfl⟩

theorem claimed_mem (hrun : reclaim py settings count w = some (.ok out, w'))
    {before : List Pending} {p : Pending} (hclaims : ClaimsNow settings count w before p) :
    ⟨p.id, settings.eventConsumerName, w.clock, p.deliveryCount + 1⟩ ∈ w'.stream.pel := by
  obtain ⟨kept, rest, hpel, -⟩ := hclaims.kept settings.eventConsumerName
  rw [reclaim_world hrun]
  simp only [claimedStream, hpel]
  exact List.mem_append_right _ List.mem_cons_self

end Join

section Counts

variable {py : Python} {settings : Settings} {count : Nat} {w : World}

/-- Each message comes with the delivery count of its pending entry; one that is due
by that count and whose processing fails is dead-lettered. -/
structure TrueCounts (py : Python) (settings : Settings) (out : List (Nat × Json × Nat))
    (w' : World) : Prop where
  counts : ∀ m ∈ out, ∃ p ∈ w'.stream.pel, p.id = m.1 ∧ m.2.2 = p.deliveryCount
  letters : ∀ m ∈ out, ∀ p ∈ w'.stream.pel, p.id = m.1 →
    settings.eventMaxDeliveries ≤ p.deliveryCount → ∀ i w₁ acc r w₂,
      Solo backend lettersPosted i w₁ (processMessage py settings m acc) r w₂ →
        (∃ acc', r = .ok acc' ∧ acc'.idsToAck = acc.idsToAck ++ [m.1]) ∨ Lettered m.1 w₁ w₂

/-- The listing of counts, which stops after `count` entries, gets as far as every
claimed entry, and the payloads that are due are objects. -/
structure InSight (py : Python) (settings : Settings) (count : Nat) (w : World) : Prop where
  listed : ∀ before p, ClaimsNow settings count w before p →
    before.countP (fun q => q.id ∉ w.stream.deleted) < Mq.batchCount settings count ∨
      p.deliveryCount = 0
  handled : ∀ before p fields payload, ClaimsNow settings count w before p →
    settings.eventMaxDeliveries ≤ p.deliveryCount + 1 → w.stream.added[p.id]? = some fields →
      Mq.parseFields py fields = .ok payload → ∃ data, payload = .obj data

theorem InSight.trueCounts (h : InSight py settings count w) {out : List (Nat × Json × Nat)}
    {w' : World} (hrun : reclaim py settings count w = some (.ok out, w')) :
    TrueCounts py settings out w' := by
  have hcount : ∀ m ∈ out, ∀ p ∈ w'.stream.pel, p.id = m.1 → m.2.2 = p.deliveryCount := by
    intro m hm q hq hid
    obtain ⟨before, p, fields, hclaims, hmid, -, -, hn⟩ := (mem_reclaim hrun).mp hm
    cases Stream.pel_unique hq (claimed_mem hrun hclaims) (hid.trans hmid)
    rcases h.listed before p hclaims with hlt | hzero
    · rw [hn, if_pos hlt]
    · rw [hn, hzero]
      split <;> rfl
  refine ⟨fun m hm => ?_, fun m hm q hq hid hdue i w₁ acc r w₂ hsolo => ?_⟩
  · obtain ⟨before, p, fields, hclaims, hmid, -⟩ := (mem_reclaim hrun).mp hm
    exact ⟨_, claimed_mem hrun hclaims, hmid.symm,
      hcount m hm _ (claimed_mem hrun hclaims) hmid.symm⟩
  · obtain ⟨before, p, fields, hclaims, hmid, hadded, hparse, -⟩ := (mem_reclaim hrun).mp hm
    have hn := hcount m hm q hq hid
    cases Stream.pel_unique hq (claimed_mem hrun hclaims) (hid.trans hmid)
    obtain ⟨data, hdata⟩ := h.handled before p fields _ hclaims hdue hadded hparse
    obtain ⟨id, payload, n⟩ := m
    cases hdata
    have hdue : settings.eventMaxDeliveries ≤ n := hdue.trans hn.ge
    have hend := hsolo.sound (wp_processMessage_posted hdue data acc)
    cases r with
    | error e => exact hend.elim
    | ok acc' => exact hend.imp_left fun hack => ⟨acc', rfl, hack⟩

/-- A reclaim reports true delivery counts if and only if the listing is long enough
for the entries that the claim has passed over. -/
theorem reclaim_counts_iff (py : Python) (settings : Settings) (count : Nat) (w : World) :
    (∀ out w', reclaim py settings count w = some (.ok out, w') →
        TrueCounts py settings out w') ↔
      (Readable py settings count w → InSight py settings count w) := by
  constructor
  · intro h hreadable
    obtain ⟨out, hrun⟩ := readable_iff.mp hreadable
    have htrue := h out _ hrun
    refine ⟨fun before p hclaims => ?_,
      fun before p fields payload hclaims hdue hadded hparse => ?_⟩
    · obtain ⟨fields, hadded⟩ := hclaims.added
      obtain ⟨payload, hparse⟩ := hreadable before p fields hclaims hadded
      obtain ⟨q, hq, hid, hn⟩ := htrue.counts _ (mem_of_claims hrun hclaims hadded hparse)
      cases Stream.pel_unique hq (claimed_mem hrun hclaims) hid
      by_cases hlt : before.countP (fun q => q.id ∉ w.stream.deleted) <
          Mq.batchCount settings count
      · exact .inl hlt
      · rw [if_neg hlt] at hn
        exact .inr (by simpa using hn.symm)
    · by_contra hobj
      have hm := mem_of_claims hrun hclaims hadded hparse
      have hraise : ∀ n, processMessage py settings (p.id, payload, n) {} =
          .raise .attributeError := by
        intro n
        cases payload with
        | obj data => exact absurd ⟨data, rfl⟩ hobj
        | _ => rfl
      rcases htrue.letters _ hm _ (claimed_mem hrun hclaims) rfl hdue 0 w {} _ w
          (by rw [hraise]; exact .raise) with ⟨acc', hok, -⟩ | hlettered
      · cases hok
      · obtain ⟨letter, -, hposted⟩ := hlettered.posted
        simpa using congrArg List.length hposted
  · intro h out w' hrun
    have hreadable := readable_iff.mpr ⟨out, reclaim_world hrun ▸ hrun⟩
    exact (h hreadable).trueCounts hrun

end Counts

/-- An entry behind a fresh one, in a backlog that is longer than the batch. -/
def backlog (recent : Nat) : World :=
  { World.init 60000 with
    stream := {
      added := List.replicate (recent + 1) ⟨some goodText⟩
      deleted := []
      delivered := recent + 1
      pel := (List.range recent).map (fun id => ⟨id, "worker-2", 60000, 1⟩) ++
        [⟨recent, "worker-2", 0, 4⟩]
      delivered_le := by simp
      pel_sorted := by
        refine List.pairwise_append.mpr ⟨?_, by simp, fun p hp q hq => ?_⟩
        · exact List.pairwise_map.mpr (List.pairwise_lt_range.imp id)
        · obtain ⟨id, hid, rfl⟩ := List.mem_map.mp hp
          rw [List.mem_singleton.mp hq]
          exact List.mem_range.mp hid
      pel_delivered := by
        intro p hp
        rcases List.mem_append.mp hp with hp | hp
        · obtain ⟨id, hid, rfl⟩ := List.mem_map.mp hp
          exact Nat.lt_succ_of_lt (List.mem_range.mp hid)
        · rw [List.mem_singleton.mp hp]
          exact Nat.lt_succ_self _ } }

/-- The fifth delivery of the second entry is reported as its first: the listing of
one entry ends at the first. -/
theorem count_lost_behind_recent :
    ¬ ∀ py settings count w out w', reclaim py settings count w = some (.ok out, w') →
      TrueCounts py settings out w' := by
  intro h
  have htest : (reclaim mixedBatch {} 1 (backlog 1)).any (fun r =>
      decide (r.2.stream.pel.map (fun p => (p.id, p.deliveryCount)) = [(0, 1), (1, 5)]) &&
        match r.1 with
        | .ok out => decide (out.map (fun m => (m.1, m.2.2)) = [(1, 1)])
        | .error _ => false) = true := by
    decide +kernel
  obtain ⟨⟨r, w'⟩, hrun, hr⟩ := (Option.any_eq_true _ _).mp htest
  cases r with
  | error e => simp at hr
  | ok out =>
      simp only [Bool.and_eq_true, decide_eq_true_eq] at hr
      obtain ⟨hpel, hout⟩ := hr
      have hm : ((1 : Nat), (1 : Nat)) ∈ out.map fun m => (m.1, m.2.2) := by simp [hout]
      obtain ⟨m, hm, heq⟩ := List.mem_map.mp hm
      obtain ⟨hid, hn⟩ := Prod.mk.inj heq
      obtain ⟨p, hp, hpid, hcount⟩ := (h _ _ _ _ out w' hrun).counts m hm
      have hpair : (p.id, p.deliveryCount) ∈ [((0 : Nat), (1 : Nat)), (1, 5)] :=
        hpel ▸ List.mem_map_of_mem hp
      rw [hpid, ← hcount, hid, hn] at hpair
      simp at hpair

section Progress

variable {py : Python} {settings : Settings} {count : Nat} {w : World}

def SomethingStale (settings : Settings) (w : World) : Prop :=
  ∃ p ∈ w.stream.pel, settings.eventClaimMinIdleMs ≤ w.clock - p.deliveredAt

/-- When something is stale, a reclaim returns a message if and only if the scan gets
as far as an entry that it can claim. -/
theorem reclaim_progress_iff (py : Python) (settings : Settings) (count : Nat) (w : World) :
    (SomethingStale settings w →
        ∃ out w', reclaim py settings count w = some (.ok out, w') ∧ out ≠ []) ↔
      (SomethingStale settings w → Readable py settings count w ∧
        ∃ before p, ClaimsNow settings count w before p) := by
  refine forall_congr' fun _ => ⟨?_, ?_⟩
  · rintro ⟨out, w', hrun, hne⟩
    obtain ⟨m, hm⟩ := List.exists_mem_of_ne_nil out hne
    obtain ⟨before, p, -, hclaims, -⟩ := (mem_reclaim hrun).mp hm
    exact ⟨readable_iff.mpr ⟨out, reclaim_world hrun ▸ hrun⟩, before, p, hclaims⟩
  · rintro ⟨hreadable, before, p, hclaims⟩
    obtain ⟨out, hrun⟩ := readable_iff.mp hreadable
    obtain ⟨fields, hadded⟩ := hclaims.added
    obtain ⟨payload, hparse⟩ := hreadable before p fields hclaims hadded
    exact ⟨out, _, hrun, List.ne_nil_of_mem (mem_of_claims hrun hclaims hadded hparse)⟩

/-- Ten fresh entries use up a scan for one entry, every time it starts over. -/
theorem stuck_behind_recent :
    ¬ ∀ py settings count w, 1 ≤ count → SomethingStale settings w →
      ∃ out w', reclaim py settings count w = some (.ok out, w') ∧ out ≠ [] := by
  intro h
  have htest : (reclaim mixedBatch {} 1 (backlog 10)).any (fun r =>
      match r.1 with
      | .ok out => out.isEmpty
      | .error _ => false) = true := by
    decide +kernel
  obtain ⟨out, w', hrun, hne⟩ := h mixedBatch {} 1 (backlog 10) le_rfl
    ⟨⟨10, "worker-2", 0, 4⟩, by simp [backlog], by decide⟩
  rw [hrun] at htest
  exact hne (by simpa using htest)

end Progress

end EventAnalytics.Workers
