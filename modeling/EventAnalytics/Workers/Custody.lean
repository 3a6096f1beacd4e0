import EventAnalytics.Frame
import EventAnalytics.Library.RelyGuarantee
import EventAnalytics.Workers.Tasks

/-! Who answers for a message. Every entry ever added to the event stream is
with the stream, with the pending list, with the dead-letter stream or with the
events table; this is an agreement between all threads, kept by commands that
are issued under a duty. -/
namespace EventAnalytics.Workers

open Library Redis

/-- The event id of an entry, when its payload has one. -/
def eventIdOf (py : Python) (fields : Entry) : Option UUID :=
  match Mq.parseFields py fields with
  | .ok (.obj data) => (uuidOfJson py (Dict.get data "event_id")).toOption
  | _ => none

def DeadLettered (py : Python) (w : World) (id : Nat) : Prop :=
  ∃ d ∈ w.dlq, d.originalId = id ∧ ∃ fields payload, w.stream.added[id]? = some fields ∧
    Mq.parseFields py fields = .ok payload ∧ d.data = py.dumps payload

/-- The event of entry `id` is a row of the committed events table. -/
def Committed (py : Python) (w : World) (id : Nat) : Prop :=
  ∃ fields e, w.stream.added[id]? = some fields ∧ eventIdOf py fields = some e ∧
    w.stored e = true

/-- The four places where an entry may be. -/
def Accounted (py : Python) (w : World) (id : Nat) : Prop :=
  w.stream.Undelivered id ∨ w.stream.IsPending id ∨ DeadLettered py w id ∨ Committed py w id

def Known (py : Python) (w : World) (e : UUID) : Prop :=
  ∃ (id : Nat) (fields : Entry), w.stream.added[id]? = some fields ∧ eventIdOf py fields = some e

def Blamed (blame : Entry → Prop) (w : World) (id : Nat) : Prop :=
  ∃ fields, w.stream.added[id]? = some fields ∧ blame fields

section Mono

variable {py : Python} {blame : Entry → Prop} {w w' : World}

theorem DeadLettered.grows {id : Nat} (h : DeadLettered py w id) (hgrows : w.Grows w') :
    DeadLettered py w' id := by
  obtain ⟨d, hd, hid, fields, payload, hfields, hpayload⟩ := h
  exact ⟨d, hgrows.dlq.subset hd, hid, fields, payload, hgrows.added? hfields, hpayload⟩

theorem Committed.grows {id : Nat} (h : Committed py w id) (hgrows : w.Grows w') :
    Committed py w' id := by
  obtain ⟨fields, e, hfields, he, hstored⟩ := h
  exact ⟨fields, e, hgrows.added? hfields, he, hgrows.stored hstored⟩

theorem Known.grows {e : UUID} (h : Known py w e) (hgrows : w.Grows w') : Known py w' e := by
  obtain ⟨id, fields, hfields, he⟩ := h
  exact ⟨id, fields, hgrows.added? hfields, he⟩

theorem Blamed.grows {id : Nat} (h : Blamed blame w id) (hgrows : w.Grows w') :
    Blamed blame w' id := by
  obtain ⟨fields, hfields, hblame⟩ := h
  exact ⟨fields, hgrows.added? hfields, hblame⟩

end Mono

/-- What the agreement promises: that no entry is lost, and which entries the
dead-letter stream is reserved for. -/
structure Terms where
  lossless : Prop
  blame : Entry → Prop

structure Custody (py : Python) (terms : Terms) (w : World) : Prop where
  accounted : terms.lossless → ∀ id < w.stream.added.length, Accounted py w id
  deleted : ∀ id ∈ w.stream.deleted, DeadLettered py w id
  blamed : ∀ d ∈ w.dlq, Blamed terms.blame w d.originalId
  clean : ∀ i, w.aborted i = true → w.ownRows i = []

/-- The duties: acknowledge what is settled, delete what has a copy, dead-letter
what is to blame, and mark as done only events that the stream has carried. -/
def duty (py : Python) (terms : Terms) (w : World) : Cmd → Prop
  | .xack ids .ackMessages => terms.lossless → ∀ id ∈ ids, Committed py w id
  | .xack ids .deadLetter => ∀ id ∈ ids, DeadLettered py w id
  | .xdel id => DeadLettered py w id
  | .xaddDlq d => Blamed terms.blame w d.originalId
  | .setDone e _ => Known py w e
  | _ => True

section Sound

variable {py : Python} {terms : Terms} {w w' : World}

theorem Custody.of_sameStream (h : Custody py terms w) (hstream : w'.stream = w.stream)
    (hdlq : w'.dlq = w.dlq) (hevents : w.events <+: w'.events)
    (hclean : ∀ i, w'.aborted i = true → w'.ownRows i = []) : Custody py terms w' := by
  have hdead : ∀ id, DeadLettered py w id → DeadLettered py w' id := by
    intro id hid
    simpa only [DeadLettered, hstream, hdlq] using hid
  refine ⟨fun hlossless id hid => ?_, fun id hid => ?_, fun d hd => ?_, hclean⟩
  · rw [hstream] at hid
    rcases h.accounted hlossless id hid with hu | hp | hd | hc
    · exact .inl (by rwa [hstream])
    · exact .inr (.inl (by rwa [hstream]))
    · exact .inr (.inr (.inl (hdead id hd)))
    · obtain ⟨fields, e, hfields, he, hstored⟩ := hc
      obtain ⟨row, hrow, hrowe⟩ := World.stored_iff.mp hstored
      exact .inr (.inr (.inr ⟨fields, e, by rwa [hstream], he,
        World.stored_iff.mpr ⟨row, hevents.subset hrow, hrowe⟩⟩))
  · rw [hstream] at hid
    exact hdead id (h.deleted id hid)
  · rw [hdlq] at hd
    simpa only [Blamed, hstream] using h.blamed d hd

theorem Custody.of_sameLedger (h : Custody py terms w) (hsame : w.SameLedger w') :
    Custody py terms w' :=
  h.of_sameStream hsame.stream hsame.dlq (by rw [hsame.events])
    fun i hi => by rw [hsame.ownRows]; exact h.clean i (by rwa [hsame.aborted] at hi)

theorem deleted_lt (h : Custody py terms w) {id : Nat} (hid : id ∈ w.stream.deleted) :
    id < w.stream.added.length := by
  obtain ⟨d, -, -, fields, -, hfields, -⟩ := h.deleted id hid
  exact (List.getElem?_eq_some_iff.mp hfields).1

theorem Custody.xadd (h : Custody py terms w) (e : Entry) :
    Custody py terms { w with stream := (w.stream.xadd e).2 } := by
  have hgrows : w.Grows { w with stream := (w.stream.xadd e).2 } :=
    ⟨List.prefix_append _ _, List.prefix_refl _, List.prefix_refl _⟩
  refine ⟨fun hlossless id hid => ?_, fun id hid => (h.deleted id hid).grows hgrows,
    fun d hd => (h.blamed d hd).grows hgrows, h.clean⟩
  by_cases hold : id < w.stream.added.length
  · rcases h.accounted hlossless id hold with hu | hp | hd | hc
    · exact .inl ⟨hu.1, hid, hu.2.2⟩
    · exact .inr (.inl hp)
    · exact .inr (.inr (.inl (hd.grows hgrows)))
    · exact .inr (.inr (.inr (hc.grows hgrows)))
  · refine .inl ⟨w.stream.delivered_le.trans (not_lt.mp hold), hid, ?_⟩
    exact fun hdel => hold (deleted_lt h hdel)

theorem Custody.regroup (h : Custody py terms w) {s : Stream}
    (hadded : s.added = w.stream.added) (hdeleted : s.deleted = w.stream.deleted)
    (hmoved : terms.lossless → ∀ id, w.stream.Undelivered id ∨ w.stream.IsPending id →
      s.Undelivered id ∨ s.IsPending id ∨ DeadLettered py w id ∨ Committed py w id) :
    Custody py terms { w with stream := s } := by
  have hgrows : w.Grows { w with stream := s } :=
    ⟨by rw [hadded], List.prefix_refl _, List.prefix_refl _⟩
  refine ⟨fun hlossless id hid => ?_, fun id hid => ?_,
    fun d hd => (h.blamed d hd).grows hgrows, h.clean⟩
  · simp only [hadded] at hid
    have hplace : s.Undelivered id ∨ s.IsPending id ∨ DeadLettered py w id ∨ Committed py w id := by
      rcases h.accounted hlossless id hid with hu | hp | hd
      · exact hmoved hlossless id (.inl hu)
      · exact hmoved hlossless id (.inr hp)
      · exact .inr (.inr hd)
    rcases hplace with hu | hp | hd | hc
    · exact .inl hu
    · exact .inr (.inl hp)
    · exact .inr (.inr (.inl (hd.grows hgrows)))
    · exact .inr (.inr (.inr (hc.grows hgrows)))
  · simp only [hdeleted] at hid
    exact (h.deleted id hid).grows hgrows

theorem Custody.xreadgroup (h : Custody py terms w) (now : Nat) (consumer : String)
    (count : Nat) :
    Custody py terms { w with stream := (w.stream.xreadgroup now consumer count).2 } := by
  refine h.regroup rfl rfl fun hlossless id hid => ?_
  rcases hid with ⟨hge, hlt, hdel⟩ | ⟨p, hp, hpid⟩
  · by_cases hpos : id < w.stream.deliveredAfter count
    · have hmem := Stream.mem_unread_of_lt hge (List.getElem?_eq_getElem hlt) hdel hpos
      exact .inr (.inl ⟨_, List.mem_append_right _ (List.mem_map_of_mem hmem), rfl⟩)
    · exact .inl ⟨not_lt.mp hpos, hlt, hdel⟩
  · exact .inr (.inl ⟨p, List.mem_append_left _ hp, hpid⟩)

theorem Custody.xautoclaim (h : Custody py terms w) (now minIdle : Nat) (consumer : String)
    (count : Nat) :
    Custody py terms { w with stream := (w.stream.xautoclaim now minIdle consumer count).2 } := by
  refine h.regroup rfl rfl fun hlossless id hid => ?_
  rcases hid with hu | ⟨p, hp, rfl⟩
  · exact .inl hu
  · by_cases hdel : p.id ∈ w.stream.deleted
    · exact .inr (.inr (.inl (h.deleted _ hdel)))
    · have hkept : p.id ∈ (w.stream.xautoclaim now minIdle consumer count).2.pel.map Pending.id :=
        (Stream.claimScan_ids _ _ _).2 p hp hdel
      obtain ⟨q, hq, hqid⟩ := List.mem_map.mp hkept
      exact .inr (.inl ⟨q, hq, hqid⟩)

theorem Custody.xack (h : Custody py terms w) {ids : List Nat}
    (hids : terms.lossless → ∀ id ∈ ids, DeadLettered py w id ∨ Committed py w id) :
    Custody py terms { w with stream := w.stream.xack ids } := by
  refine h.regroup rfl rfl fun hlossless id hid => ?_
  rcases hid with hu | ⟨p, hp, rfl⟩
  · exact .inl hu
  · by_cases hmem : p.id ∈ ids
    · exact .inr (.inr (hids hlossless _ hmem))
    · exact .inr (.inl ⟨p, List.mem_filter.mpr ⟨hp, by simpa using hmem⟩, rfl⟩)

theorem Custody.xdel (h : Custody py terms w) {id : Nat} (hid : DeadLettered py w id) :
    Custody py terms { w with stream := w.stream.xdel id } := by
  have hgrows : w.Grows { w with stream := w.stream.xdel id } :=
    ⟨List.prefix_refl _, List.prefix_refl _, List.prefix_refl _⟩
  refine ⟨fun hlossless id' hid' => ?_, fun id' hid' => ?_,
    fun d hd => (h.blamed d hd).grows hgrows, h.clean⟩
  · rcases h.accounted hlossless id' hid' with ⟨hge, hlt, hdel⟩ | hp | hd | hc
    · by_cases heq : id' = id
      · exact .inr (.inr (.inl ((heq ▸ hid).grows hgrows)))
      · exact .inl ⟨hge, hlt, by simpa [Stream.xdel, heq] using hdel⟩
    · exact .inr (.inl hp)
    · exact .inr (.inr (.inl (hd.grows hgrows)))
    · exact .inr (.inr (.inr (hc.grows hgrows)))
  · rcases List.mem_cons.mp hid' with rfl | hid'
    · exact hid.grows hgrows
    · exact (h.deleted id' hid').grows hgrows

theorem Custody.xaddDlq (h : Custody py terms w) {d : DeadLetter}
    (hd : Blamed terms.blame w d.originalId) : Custody py terms { w with dlq := w.dlq ++ [d] } := by
  have hgrows : w.Grows { w with dlq := w.dlq ++ [d] } :=
    ⟨List.prefix_refl _, List.prefix_append _ _, List.prefix_refl _⟩
  refine ⟨fun hlossless id hid => ?_, fun id hid => (h.deleted id hid).grows hgrows,
    fun d' hd' => ?_, h.clean⟩
  · rcases h.accounted hlossless id hid with hu | hp | hd | hc
    · exact .inl hu
    · exact .inr (.inl hp)
    · exact .inr (.inr (.inl (hd.grows hgrows)))
    · exact .inr (.inr (.inr (hc.grows hgrows)))
  · rcases List.mem_append.mp hd' with hd' | hd'
    · exact (h.blamed d' hd').grows hgrows
    · rw [List.mem_singleton.mp hd']
      exact hd.grows hgrows

theorem clean_drop (h : Custody py terms w) {i : Nat} {b : Bool} {w' : World}
    (huncommitted : w'.uncommitted = w.dropRows i) (haborted : w'.aborted = setAt w.aborted i b)
    (j : Nat) (hj : w'.aborted j = true) : w'.ownRows j = [] := by
  unfold World.ownRows
  rw [huncommitted]
  by_cases hji : j = i
  · subst hji
    exact w.ownRows_dropRows_self j
  · rw [World.ownRows_dropRows_ne w hji]
    rw [haborted, setAt_ne _ _ hji] at hj
    exact h.clean j hj

theorem Custody.insertRow (h : Custody py terms w) {i : Nat} (haborted : w.aborted i = false)
    (row : EventRow) :
    Custody py terms { w with uncommitted := w.uncommitted ++ [(i, row)] } := by
  refine h.of_sameStream rfl rfl (List.prefix_refl _) fun j hj => ?_
  have hji : i ≠ j := by
    rintro rfl
    simp [haborted] at hj
  have hrows := h.clean j hj
  unfold World.ownRows at hrows ⊢
  simpa [List.filter_append, hji] using hrows

theorem Custody.abortTx (h : Custody py terms w) (i : Nat) : Custody py terms (w.abortTx i) :=
  h.of_sameStream rfl rfl (List.prefix_refl _) (clean_drop h rfl rfl)

theorem Custody.rollbackTx (h : Custody py terms w) (i : Nat) :
    Custody py terms (w.rollbackTx i) :=
  h.of_sameStream rfl rfl (List.prefix_refl _) (clean_drop h rfl rfl)

theorem Custody.commitTx (h : Custody py terms w) (i : Nat) : Custody py terms (w.commitTx i) :=
  h.of_sameStream rfl rfl (w.events_commitTx i) (clean_drop h rfl rfl)

theorem Custody.exec (h : Custody py terms w) {i : Nat} {ch : Choice} {c : Cmd}
    {r : Except Exn c.Resp} (hduty : duty py terms w c)
    (hexec : backend.exec i ch w c = some (r, w')) : Custody py terms w' := by
  by_cases hquiet : c.quiet = true
  · exact h.of_sameLedger (exec_quiet hquiet hexec)
  cases c <;> simp only [Cmd.quiet, not_true_eq_false] at hquiet
  case insertEvent row origin =>
    rcases exec_insertEvent hexec with hins | hdup | hraised | hrejected
    · obtain ⟨-, -, haborted, -, -, -, rfl⟩ := hins
      exact h.insertRow haborted row
    · rw [hdup.2.2.2.2]
      exact h
    · rw [hraised.2.1]
      exact h
    · rw [hrejected.2.1]
      exact h.abortTx i
  case selectEvent e =>
    rcases exec_selectEvent hexec with rfl | ⟨rfl, -⟩
    · exact h
    · exact h.abortTx i
  case commit =>
    rcases exec_commit hexec with rfl | ⟨rfl, -⟩
    · exact h.commitTx i
    · exact h
  case rollback =>
    rw [exec_rollback hexec]
    exact h.rollbackTx i
  all_goals
    rcases exec_stream rfl rfl rfl hexec with ⟨rfl, -⟩ | ⟨rfl, -⟩
    · exact h
  · exact h.xadd _
  · exact h.xreadgroup _ _ _
  · exact h.xautoclaim _ _ _ _
  · rename_i ids acker
    apply h.xack
    intro hlossless id hid
    cases acker with
    | ackMessages => exact .inr (hduty hlossless id hid)
    | deadLetter => exact .inl (hduty id hid)
  · exact h.xdel hduty
  · exact h.xaddDlq hduty

theorem Custody.env (h : Custody py terms w) {e : EnvAct} (henv : backend.env e w = some w') :
    Custody py terms w' := by
  cases e with
  | tick ms =>
      cases henv
      exact h.of_sameStream rfl rfl (List.prefix_refl _) h.clean
  | produce entry =>
      cases henv
      exact h.xadd entry

end Sound

def ofPass : Cmd → Bool
  | .now | .setDone .. | .xreadgroup .. | .xautoclaim .. | .xpendingRange .. | .xack ..
  | .xdel .. | .xaddDlq .. | .xlen | .xlenDlq | .xinfoGroups | .pfadd .. | .expireHll ..
  | .insertEvent .. | .commit | .rollback => true
  | _ => false

def custody (py : Python) (terms : Terms) (π : BackendPolicy) :
    Discipline Cmd.Resp Exn World Choice EnvAct where
  machine := backend
  policy := π
  inv := Custody py terms
  rely := World.Frame
  duty := fun _ w c => ofPass c = true ∧ duty py terms w c
  rely_refl := World.Frame.refl
  rely_trans := fun _ _ _ _ => World.Frame.trans
  step_sound := fun _ _ _ _ _ _ _ hinv hduty hexec =>
    ⟨hinv.exec hduty.2 hexec, fun _ hj => exec_frame hj hexec⟩
  crash_sound := fun i w _ _ hinv => ⟨hinv.rollbackTx i, fun _ hj => crash_frame w hj⟩
  env_sound := fun _ _ _ _ hinv henv => ⟨hinv.env henv, env_frame henv⟩

/-- Stores whose consumer group has done nothing yet. Entries may wait in the
stream and rows may be stored. -/
structure Fresh (w : World) : Prop where
  delivered : w.stream.delivered = 0
  deleted : w.stream.deleted = []
  dlq : w.dlq = []
  uncommitted : w.uncommitted = []

theorem Fresh.custody {w : World} (h : Fresh w) (py : Python) (terms : Terms) :
    Custody py terms w where
  accounted := fun _ id hid => .inl ⟨by simp [h.delivered], hid, by simp [h.deleted]⟩
  deleted := by simp [h.deleted]
  blamed := by simp [h.dlq]
  clean := fun i _ => by simp [World.ownRows, h.uncommitted]

end EventAnalytics.Workers
