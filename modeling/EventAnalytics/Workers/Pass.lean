import EventAnalytics.Workers.Custody

/-! One pass of the worker, verified against whatever other threads do. -/
namespace EventAnalytics.Workers

open Library Library.Discipline Redis

/-- The row that the worker makes of an entry, but for its `server_ts`. -/
def rowOf (py : Python) (fields : Entry) : Option (Nat → EventRow) :=
  match Mq.parseFields py fields with
  | .ok (.obj data) =>
    if (Dict.get data "_parse_error").truthy || !(Dict.get data "event_id").truthy then none
    else
      match decodeEvent py data with
      | .ok (.row make) => some make
      | _ => none
  | _ => none

theorem decodeEvent_row {py : Python} {data : Dict} {make : Nat → EventRow}
    (h : decodeEvent py data = .ok (.row make)) :
    ∃ row : EventRow, uuidOfJson py (Dict.get data "event_id") = .ok row.eventId ∧
      ∀ serverTs, make serverTs = { row with serverTs := serverTs } := by
  unfold decodeEvent at h
  cases he : uuidOfJson py (Dict.get data "event_id") with
  | error e => simp [he] at h
  | ok e =>
      simp only [he] at h
      cases hu : userIdOf py data with
      | error e' => simp [hu, bind, Except.bind] at h
      | ok u =>
          cases hc : clientTsOf py data with
          | error e' => simp [hu, hc, bind, Except.bind] at h
          | ok c =>
              simp only [hu, hc, bind, Except.bind] at h
              split at h
              · simp [pure, Except.pure] at h
              · simp only [pure, Except.pure, Except.ok.injEq, Decoded.row.injEq] at h
                exact ⟨make 0, by rw [← h], fun serverTs => by rw [← h]⟩

theorem rowOf_row {py : Python} {fields : Entry} {make : Nat → EventRow}
    (h : rowOf py fields = some make) :
    ∃ row : EventRow, eventIdOf py fields = some row.eventId ∧
      ∀ serverTs, make serverTs = { row with serverTs := serverTs } := by
  cases hparse : Mq.parseFields py fields with
  | error e => simp [rowOf, hparse] at h
  | ok payload =>
      cases payload with
      | obj data =>
          simp only [rowOf, hparse] at h
          split at h
          · cases h
          · split at h
            · rename_i make' hdecode
              cases h
              obtain ⟨row, hid, hmake⟩ := decodeEvent_row hdecode
              exact ⟨row, by simp [eventIdOf, hparse, hid, Except.toOption], hmake⟩
            · cases h
      | _ => simp [rowOf, hparse] at h

def Carries (py : Python) (w : World) (id : Nat) (payload : Json) : Prop :=
  ∃ fields, w.stream.added[id]? = some fields ∧ Mq.parseFields py fields = .ok payload

/-- The event of entry `id` is stored, or will be when thread `i` commits. -/
def Persisting (py : Python) (i : Nat) (w : World) (id : Nat) : Prop :=
  ∃ fields e, w.stream.added[id]? = some fields ∧ eventIdOf py fields = some e ∧
    (w.stored e = true ∨ w.ownsRow i e = true)

theorem Carries.grows {py : Python} {w w' : World} {id : Nat} {payload : Json}
    (h : Carries py w id payload) (hgrows : w.Grows w') : Carries py w' id payload := by
  obtain ⟨fields, hfields, hparse⟩ := h
  exact ⟨fields, hgrows.added? hfields, hparse⟩

theorem Persisting.grows {py : Python} {i : Nat} {w w' : World} {id : Nat}
    (h : Persisting py i w id) (hgrows : w.Grows w')
    (hown : ∀ e, w.ownsRow i e = true → w'.stored e = true ∨ w'.ownsRow i e = true) :
    Persisting py i w' id := by
  obtain ⟨fields, e, hfields, he, hstored | howned⟩ := h
  · exact ⟨fields, e, hgrows.added? hfields, he, .inl (hgrows.stored hstored)⟩
  · exact ⟨fields, e, hgrows.added? hfields, he, hown e howned⟩

/-- What a thread knows in the middle of its pass: the ids that it is going to
acknowledge, and the messages that it still has to handle. -/
structure Holding (py : Python) (terms : Terms) (i : Nat) (idsToAck : List Nat)
    (work : List (Nat × Json × Nat)) (w : World) : Prop where
  inv : Custody py terms w
  acked : terms.lossless → ∀ id ∈ idsToAck, Persisting py i w id
  carried : ∀ message ∈ work, Carries py w message.1 message.2.1

/-- The conditions under which thread `i` may run passes. A statement that the
server rejects drops what the transaction has inserted so far; whatever is
dead-lettered has to be to blame. -/
structure Terms.Respected (terms : Terms) (py : Python) (settings : Settings)
    (π : BackendPolicy) (i : Nat) : Prop where
  gentle : terms.lossless → ∀ w row origin,
    π.step i .raiseAfter w (.insertEvent row origin) = true → w.ownRows i = []
  invalid : ∀ fields, rowOf py fields = none → terms.blame fields
  rejected : ∀ ch w w' id n fields make serverTs e,
    π.step i ch w (.insertEvent (make serverTs) (.delivery id n)) = true →
    backend.exec i ch w (.insertEvent (make serverTs) (.delivery id n)) =
      some (.error e, w') →
    settings.eventMaxDeliveries ≤ n → w.stream.added[id]? = some fields →
    rowOf py fields = some make → terms.blame fields
  quiet : ∀ ch w w' (c : Cmd) e, c.quiet = true → π.step i ch w c = true →
    backend.exec i ch w c = some (.error e, w') → ∀ fields, terms.blame fields

section Pass

variable {py : Python} {settings : Settings} {terms : Terms} {π : BackendPolicy} {i : Nat}
  {idsToAck : List Nat} {work : List (Nat × Json × Nat)} {w w' : World}

theorem Holding.frame (h : Holding py terms i idsToAck work w) (hframe : w.Frame i w')
    (hinv : Custody py terms w') : Holding py terms i idsToAck work w' where
  inv := hinv
  acked := fun hlossless id hid => (h.acked hlossless id hid).grows hframe.toGrows
    fun _ he => .inr (hframe.ownsRow he)
  carried := fun message hmessage => (h.carried message hmessage).grows hframe.toGrows

theorem wp_redis {c : Cmd} {R : c.Resp → World → Prop} {E : Exn → World → Prop}
    (hsql : c.sql = false) (hpass : ofPass c = true) (hduty : duty py terms w c)
    (herror : ∀ ch e w₁, π.step i ch w c = true →
      backend.exec i ch w c = some (.error e, w₁) →
      ∀ w', w.Frame i w' → Custody py terms w' → E e w')
    (hok : ∀ ch a w₁, backend.exec i ch w c = some (.ok a, w₁) →
      ∀ w', w.Frame i w' → w₁.Frame i w' → Custody py terms w' → R a w') :
    (custody py terms π).wp i (await c) (ends R E) w := by
  refine wp_perform ⟨hpass, hduty⟩ (fun _ _ _ => trivial) ?_
  intro ch r w₁ hadm hexec w' ⟨hinv, hrely⟩
  have hframe : w.Frame i w' := (exec_frame_redis hsql hexec i).trans hrely
  cases r with
  | ok a => exact hok ch a w₁ hexec w' hframe hrely hinv
  | error e => exact herror ch e w₁ hadm hexec w' hframe hinv

theorem wp_deadLetter {P : World → Prop}
    (hstable : ∀ {w w' : World}, P w → w.Frame i w' → Custody py terms w' → P w') (hP : P w)
    {messageId : Nat} {payload : Json} (hcarries : Carries py w messageId payload)
    (hblame : Blamed terms.blame w messageId) (reason : String) (deliveryCount : Nat) :
    (custody py terms π).wp i (Mq.deadLetter py messageId payload reason deliveryCount)
      (ends (fun _ => P) fun _ => P) w := by
  unfold Mq.deadLetter
  refine wp_seq (S := fun _ w => P w ∧ DeadLettered py w messageId)
    (wp_redis rfl rfl hblame (fun _ _ _ _ _ w' hframe hinv => hstable hP hframe hinv) ?_) ?_
  · intro ch a w₁ hexec w' hframe hlater hinv
    refine ⟨hstable hP hframe hinv, ?_⟩
    obtain ⟨fields, hfields, hparse⟩ := hcarries
    have hdead : DeadLettered py w₁ messageId := by
      rcases exec_stream rfl rfl rfl hexec with ⟨-, hr⟩ | ⟨rfl, -⟩
      · cases hr
      · exact ⟨_, List.mem_append_right _ (List.mem_singleton_self _), rfl, fields, payload,
          hfields, hparse, rfl⟩
    exact hdead.grows hlater.toGrows
  intro _ w ⟨hP, hdead⟩
  refine wp_seq (S := fun _ w => P w ∧ DeadLettered py w messageId)
    (wp_redis rfl rfl (fun id hid => List.mem_singleton.mp hid ▸ hdead)
      (fun _ _ _ _ _ w' hframe hinv => hstable hP hframe hinv)
      fun _ _ _ _ w' hframe _ hinv =>
        ⟨hstable hP hframe hinv, hdead.grows hframe.toGrows⟩) ?_
  intro _ w ⟨hP, hdead⟩
  exact wp_try (F := fun _ => P)
    (wp_redis rfl rfl hdead (fun _ _ _ _ _ w' hframe hinv => hstable hP hframe hinv)
      fun _ _ _ _ w' hframe _ hinv => hstable hP hframe hinv)
    fun _ _ hP => hP

structure Handling (py : Python) (terms : Terms) (i : Nat) (idsToAck : List Nat)
    (work : List (Nat × Json × Nat)) (id : Nat) (fields : Entry) (w : World) : Prop
    extends Holding py terms i idsToAck work w where
  entry : w.stream.added[id]? = some fields

theorem Handling.frame {id : Nat} {fields : Entry}
    (h : Handling py terms i idsToAck work id fields w) (hframe : w.Frame i w')
    (hinv : Custody py terms w') : Handling py terms i idsToAck work id fields w' :=
  ⟨h.toHolding.frame hframe hinv, hframe.toGrows.added? h.entry⟩

/-- An exception was raised at the message: if it is dead-lettered for that, it is
to blame. -/
def Excepted (py : Python) (settings : Settings) (terms : Terms) (i : Nat)
    (idsToAck : List Nat) (work : List (Nat × Json × Nat)) (id n : Nat) (fields : Entry)
    (w : World) : Prop :=
  Handling py terms i idsToAck work id fields w ∧
    (settings.eventMaxDeliveries ≤ n → terms.blame fields)

/-- The `INSERT` of the message at hand. A success adds to what the commit will
store, and under the conditions a rejection takes nothing away. -/
theorem wp_insertEvent (hrespected : terms.Respected py settings π i)
    {id n : Nat} {fields : Entry} (h : Handling py terms i idsToAck work id fields w)
    {make : Nat → EventRow}
    (hrow : rowOf py fields = some make) (serverTs : Nat) :
    (custody py terms π).wp i (await (.insertEvent (make serverTs) (.delivery id n)))
      (ends
        (fun _ w => Handling py terms i idsToAck work id fields w ∧
          (w.stored (make serverTs).eventId = true ∨ w.ownsRow i (make serverTs).eventId = true))
        (fun _ => Excepted py settings terms i idsToAck work id n fields)) w := by
  refine wp_perform ⟨rfl, trivial⟩ (fun _ _ _ => trivial) ?_
  intro ch r w₁ hadm hexec w' ⟨hinv, hrely⟩
  have hgrows : w.Grows w' := (exec_grows hexec).trans hrely.toGrows
  have hcarried : ∀ message ∈ work, Carries py w' message.1 message.2.1 :=
    fun message hmessage => (h.carried message hmessage).grows hgrows
  rcases exec_insertEvent hexec with hins | hdup | hraised | hrejected
  · obtain ⟨rfl, -, -, -, -, -, rfl⟩ := hins
    have hnew : w'.ownsRow i (make serverTs).eventId = true :=
      hrely.ownsRow (by simp [World.ownsRow])
    refine ⟨⟨⟨hinv, fun hlossless id hid => ?_, hcarried⟩, hgrows.added? h.entry⟩, .inr hnew⟩
    refine (h.acked hlossless id hid).grows hgrows fun e he => .inr (hrely.ownsRow ?_)
    simp only [World.ownsRow, List.any_append, Bool.or_eq_true] at he ⊢
    exact .inl he
  · obtain ⟨rfl, -, -, hconflict, rfl⟩ := hdup
    refine ⟨h.frame hrely hinv, ?_⟩
    exact hconflict.imp hgrows.stored hrely.ownsRow
  · obtain ⟨rfl, rfl, -⟩ := hraised
    exact ⟨h.frame hrely hinv, fun hdue =>
      hrespected.rejected ch _ _ id n fields make serverTs _ hadm hexec hdue h.entry hrow⟩
  · obtain ⟨rfl, rfl, rfl⟩ := hrejected
    refine ⟨⟨⟨hinv, fun hlossless id hid => ?_, hcarried⟩, hgrows.added? h.entry⟩, fun hdue =>
      hrespected.rejected _ _ _ id n fields make serverTs _ hadm hexec hdue h.entry hrow⟩
    have hnone := hrespected.gentle hlossless w _ _ hadm
    apply (h.acked hlossless id hid).grows hgrows
    intro e he
    obtain ⟨row, hmem, -⟩ := World.ownsRow_iff.mp he
    simp [hnone] at hmem

theorem wp_quiet {c : Cmd} {P : World → Prop} {id : Nat} {fields : Entry} {n : Nat}
    (hrespected : terms.Respected py settings π i) (hquiet : c.quiet = true)
    (hsql : c.sql = false) (hpass : ofPass c = true) (hduty : duty py terms w c)
    (h : Handling py terms i idsToAck work id fields w)
    (hstable : ∀ {w w' : World}, P w → w.Frame i w' → P w') (hP : P w) :
    (custody py terms π).wp i (await c)
      (ends (fun _ w => Handling py terms i idsToAck work id fields w ∧ P w)
        (fun _ => Excepted py settings terms i idsToAck work id n fields)) w :=
  wp_redis hsql hpass hduty
    (fun ch e _ hadm hexec _ hframe hinv => ⟨h.frame hframe hinv, fun _ =>
      hrespected.quiet ch _ _ c e hquiet hadm hexec fields⟩)
    fun _ _ _ _ _ hframe _ hinv => ⟨h.frame hframe hinv, hstable hP hframe⟩

theorem wp_countUser {P : World → Prop} {id : Nat} {fields : Entry} {n : Nat}
    (hrespected : terms.Respected py settings π i)
    (h : Handling py terms i idsToAck work id fields w)
    (hstable : ∀ {w w' : World}, P w → w.Frame i w' → P w') (hP : P w) (inserted : Bool)
    (row : EventRow) :
    (custody py terms π).wp i (countUser inserted row)
      (ends (fun _ w => Handling py terms i idsToAck work id fields w ∧ P w)
        (fun _ => Excepted py settings terms i idsToAck work id n fields)) w := by
  unfold countUser
  split
  · refine wp_seq (wp_quiet hrespected rfl rfl rfl trivial h hstable hP) fun _ w ⟨h, hP⟩ => ?_
    refine wp_seq (wp_quiet hrespected rfl rfl rfl trivial h hstable hP) fun _ w ⟨h, hP⟩ => ?_
    exact wp_quiet hrespected rfl rfl rfl trivial h hstable hP
  · exact ⟨h, hP⟩

theorem wp_persistRow (hrespected : terms.Respected py settings π i) {id n : Nat}
    {fields : Entry} (h : Handling py terms i idsToAck work id fields w)
    {make : Nat → EventRow} (hrow : rowOf py fields = some make) :
    (custody py terms π).wp i (persistRow settings (.delivery id n) make)
      (ends
        (fun persisted w => persisted ≠ .invalid ∧
          Handling py terms i idsToAck work id fields w ∧ Persisting py i w id)
        (fun _ => Excepted py settings terms i idsToAck work id n fields)) w := by
  have hid : ∀ serverTs, eventIdOf py fields = some (make serverTs).eventId := by
    obtain ⟨row, hid, hmake⟩ := rowOf_row hrow
    exact fun serverTs => by rw [hmake, hid]
  have hstable : ∀ {w w' : World}, Persisting py i w id → w.Frame i w' →
      Persisting py i w' id :=
    fun hP hframe => hP.grows hframe.toGrows fun _ he => .inr (hframe.ownsRow he)
  unfold persistRow
  refine wp_seq (wp_quiet (P := fun _ => True) hrespected rfl rfl rfl trivial h
    (fun _ _ => trivial) trivial) fun serverTs w ⟨h, _⟩ => ?_
  apply wp_seq (wp_insertEvent hrespected h hrow serverTs)
  intro inserted w ⟨h, hmine⟩
  have hpersist : Persisting py i w id := ⟨fields, _, h.entry, hid serverTs, hmine⟩
  apply wp_seq (wp_countUser hrespected h hstable hpersist _ _)
  intro _ w ⟨h, hpersist⟩
  exact wp_seq (wp_quiet hrespected rfl rfl rfl ⟨id, fields, h.entry, hid serverTs⟩ h
    hstable hpersist) fun _ _ hw => ⟨by cases inserted <;> simp, hw⟩

/-- The dead-lettering decision: what the thread holds is kept, and only an entry
that is to blame is moved. -/
theorem wp_deadLetterIfDue {acc : Progress} {id n : Nat} {data : Dict} {fields : Entry}
    (hparse : Mq.parseFields py fields = .ok (.obj data))
    (h : Excepted py settings terms i acc.idsToAck work id n fields w) (reason : String) :
    (custody py terms π).wp i (deadLetterIfDue py settings id data n reason acc)
      (ends (fun acc' w => Holding py terms i acc'.idsToAck work w)
        (fun _ => Excepted py settings terms i acc.idsToAck work id n fields)) w := by
  unfold deadLetterIfDue
  split
  · rename_i hdue
    have hblame := h.2 hdue
    refine wp_seq (S := fun _ => Excepted py settings terms i acc.idsToAck work id n fields)
      (wp_deadLetter (fun hP hframe hinv => ⟨hP.1.frame hframe hinv, hP.2⟩) h
        ⟨fields, h.1.entry, hparse⟩ ⟨fields, h.1.entry, hblame⟩ reason n) ?_
    exact fun _ _ hP => hP.1.toHolding
  · exact h.1.toHolding

theorem wp_handleMessage (hrespected : terms.Respected py settings π i) {acc : Progress}
    {id n : Nat} {data : Dict} {fields : Entry}
    (hparse : Mq.parseFields py fields = .ok (.obj data))
    (hpayload : ¬ ((Dict.get data "_parse_error").truthy || !(Dict.get data "event_id").truthy))
    (h : Handling py terms i acc.idsToAck work id fields w) :
    (custody py terms π).wp i (handleMessage py settings id data n acc)
      (ends (fun acc' w => Holding py terms i acc'.idsToAck work w)
        (fun _ => Excepted py settings terms i acc.idsToAck work id n fields)) w := by
  have hacked : ∀ w, Handling py terms i acc.idsToAck work id fields w →
      Persisting py i w id → Holding py terms i (acc.idsToAck ++ [id]) work w := by
    intro w h hpersist
    refine ⟨h.inv, fun hlossless id' hid' => ?_, h.carried⟩
    rcases List.mem_append.mp hid' with hid' | hid'
    · exact h.acked hlossless id' hid'
    · exact List.mem_singleton.mp hid' ▸ hpersist
  unfold handleMessage persistEvent
  cases hdecode : decodeEvent py data with
  | error e =>
      exact ⟨h, fun _ => hrespected.invalid fields (by simp [rowOf, hparse, hpayload, hdecode])⟩
  | ok decoded =>
      cases decoded with
      | invalid =>
          have hblame := hrespected.invalid fields (by simp [rowOf, hparse, hpayload, hdecode])
          exact wp_deadLetterIfDue hparse ⟨h, fun _ => hblame⟩ _
      | row make =>
          have hrow : rowOf py fields = some make := by simp [rowOf, hparse, hpayload, hdecode]
          refine wp_seq (wp_persistRow hrespected h hrow)
            fun persisted w ⟨hvalid, h, hpersist⟩ => ?_
          cases persisted with
          | inserted => exact hacked w h hpersist
          | conflict => exact hacked w h hpersist
          | invalid => exact absurd rfl hvalid

/-- One turn of the loop. The step lemma of the pass. -/
theorem wp_processMessage (hrespected : terms.Respected py settings π i) {acc : Progress}
    {message : Nat × Json × Nat} (hcarries : Carries py w message.1 message.2.1)
    (h : Holding py terms i acc.idsToAck work w) :
    (custody py terms π).wp i (processMessage py settings message acc)
      (ends (fun acc' w => Holding py terms i acc'.idsToAck work w) fun _ _ => True) w := by
  obtain ⟨id, payload, n⟩ := message
  obtain ⟨fields, hentry, hparse⟩ := hcarries
  have hhandling : Handling py terms i acc.idsToAck work id fields w := ⟨h, hentry⟩
  cases payload with
  | obj data =>
      simp only [processMessage]
      split
      · rename_i hpayload
        have hblame := hrespected.invalid fields (by simp only [rowOf, hparse, hpayload, if_true])
        exact wp_ends_mono (fun _ _ hw => hw) (fun _ _ _ => trivial)
          (wp_deadLetterIfDue hparse ⟨hhandling, fun _ => hblame⟩ _)
      · rename_i hpayload
        apply wp_try (wp_handleMessage hrespected hparse hpayload hhandling)
        intro exc w hexcepted
        exact wp_ends_mono (fun _ _ hw => hw) (fun _ _ _ => trivial)
          (wp_deadLetterIfDue hparse hexcepted _)
  | _ => trivial

/-- The loop, by induction on the messages that are left. -/
theorem wp_processMessages (hrespected : terms.Respected py settings π i) {acc : Progress}
    (h : Holding py terms i acc.idsToAck work w) :
    (custody py terms π).wp i (processMessages py settings work acc)
      (ends (fun acc' w => Holding py terms i acc'.idsToAck [] w) fun _ _ => True) w := by
  induction work generalizing acc w with
  | nil => exact h
  | cons message work ih =>
      have hrest : Holding py terms i acc.idsToAck work w :=
        ⟨h.inv, h.acked, fun m hm => h.carried m (List.mem_cons_of_mem _ hm)⟩
      unfold processMessages
      exact wp_seq (wp_processMessage hrespected (h.carried _ List.mem_cons_self) hrest)
        fun _ _ hw => ih hw

theorem mem_parseEntries {entries : List (Nat × Entry)} {messages : List (Nat × Json)}
    (h : Mq.parseEntries py entries = .ok messages) {message : Nat × Json}
    (hmessage : message ∈ messages) :
    ∃ fields, (message.1, fields) ∈ entries ∧ Mq.parseFields py fields = .ok message.2 := by
  induction entries generalizing messages with
  | nil =>
      cases h
      cases hmessage
  | cons entry entries ih =>
      obtain ⟨id, fields⟩ := entry
      unfold Mq.parseEntries at h
      cases hparse : Mq.parseFields py fields with
      | error e => simp [hparse, bind, Except.bind] at h
      | ok data =>
          cases hrest : Mq.parseEntries py entries with
          | error e => simp [hparse, hrest, bind, Except.bind] at h
          | ok rest =>
              simp only [hparse, hrest, bind, Except.bind, pure, Except.pure,
                Except.ok.injEq] at h
              subst h
              rcases List.mem_cons.mp hmessage with rfl | hmem
              · exact ⟨fields, List.mem_cons_self, hparse⟩
              · obtain ⟨fields', hfields', hparse'⟩ := ih hrest hmem
                exact ⟨fields', List.mem_cons_of_mem _ hfields', hparse'⟩

theorem carries_parseEntries {entries : List (Nat × Entry)} {messages : List (Nat × Json)}
    (hadded : ∀ entry ∈ entries, w.stream.added[entry.1]? = some entry.2)
    (h : Mq.parseEntries py entries = .ok messages) :
    ∀ message ∈ messages, Carries py w message.1 message.2 := by
  intro message hmessage
  obtain ⟨fields, hmem, hparse⟩ := mem_parseEntries h hmessage
  exact ⟨fields, hadded _ hmem, hparse⟩

theorem wp_readEventsBatch (count : Nat) :
    (custody py terms π).wp i (Mq.readEventsBatch py settings count)
      (ends
        (fun messages w => Custody py terms w ∧
          ∀ message ∈ messages, Carries py w message.1 message.2)
        fun _ _ => True) w := by
  unfold Mq.readEventsBatch
  refine wp_seq
    (S := fun entries w => Custody py terms w ∧
      ∀ entry ∈ entries, w.stream.added[entry.1]? = some entry.2) ?_ ?_
  · unfold Mq.xreadgroup
    split
    · trivial
    refine wp_redis rfl rfl trivial (fun _ _ _ _ _ _ _ _ => trivial) ?_
    intro ch a w₁ hexec w' hframe _ hinv
    rcases exec_stream rfl rfl rfl hexec with ⟨-, hr⟩ | ⟨-, hr | hr⟩
    · cases hr
    · cases hr
      exact ⟨hinv, fun entry hentry =>
        hframe.toGrows.added? (Stream.mem_unread hentry).2.1⟩
    · cases hr
  · intro entries w ⟨hinv, hadded⟩
    cases hparse : Mq.parseEntries py entries with
    | error e => trivial
    | ok messages => exact ⟨hinv, carries_parseEntries hadded hparse⟩

theorem wp_reclaimStaleMessages {P : World → Prop} (count : Nat)
    (hstable : ∀ {w w' : World}, P w → w.Frame i w' → Custody py terms w' → P w') (hP : P w) :
    (custody py terms π).wp i (Mq.reclaimStaleMessages py settings count)
      (ends
        (fun messages w => P w ∧ ∀ message ∈ messages, Carries py w message.1 message.2.1)
        fun _ _ => True) w := by
  unfold Mq.reclaimStaleMessages
  refine wp_seq
    (S := fun claimed w => P w ∧ ∀ entries, claimed = some entries →
      ∀ entry ∈ entries, w.stream.added[entry.1]? = some entry.2)
    (wp_try (F := fun _ => P) ?_ fun _ _ hP => ⟨hP, fun _ h => by cases h⟩) ?_
  · rw [Prog.map_eq]
    refine wp_seq
      (S := fun entries w => P w ∧ ∀ entry ∈ entries, w.stream.added[entry.1]? = some entry.2)
      (wp_redis rfl rfl trivial (fun _ _ _ _ _ _ hframe hinv => hstable hP hframe hinv) ?_)
      fun entries w hw => ⟨hw.1, fun _ h => by cases h; exact hw.2⟩
    intro ch a w₁ hexec w' hframe _ hinv
    refine ⟨hstable hP hframe hinv, fun entry hentry => ?_⟩
    rcases exec_stream rfl rfl rfl hexec with ⟨-, hr⟩ | ⟨-, hr | hr⟩
    · cases hr
    · cases hr
      obtain ⟨id, -, hid⟩ := List.mem_filterMap.mp hentry
      obtain ⟨fields, hfields, rfl⟩ := Option.map_eq_some_iff.mp hid
      exact hframe.toGrows.added? hfields
    · cases hr
  · intro claimed w ⟨hP, hadded⟩
    cases claimed with
    | none => exact ⟨hP, by simp⟩
    | some entries =>
        have hadded := hadded entries rfl
        refine wp_seq
          (S := fun _ w => P w ∧ ∀ entry ∈ entries, w.stream.added[entry.1]? = some entry.2)
          (wp_try (F := fun _ w => P w ∧
            ∀ entry ∈ entries, w.stream.added[entry.1]? = some entry.2)
            (wp_redis rfl rfl trivial
              (fun _ _ _ _ _ _ hframe hinv => ⟨hstable hP hframe hinv,
                fun entry hentry => hframe.toGrows.added? (hadded entry hentry)⟩)
              fun _ _ _ _ _ hframe _ hinv => ⟨hstable hP hframe hinv,
                fun entry hentry => hframe.toGrows.added? (hadded entry hentry)⟩)
            fun _ _ hw => hw) ?_
        intro counts w ⟨hP, hadded⟩
        cases hparse : Mq.parseEntries py entries with
        | error e => trivial
        | ok messages =>
            refine ⟨hP, fun message hmessage => ?_⟩
            obtain ⟨parsed, hparsed, rfl⟩ := List.mem_map.mp hmessage
            exact carries_parseEntries hadded hparse parsed hparsed

theorem stored_commitTx {e : UUID} (h : Custody py terms w)
    (he : w.stored e = true ∨ w.ownsRow i e = true) : (w.commitTx i).stored e = true := by
  rcases he with hstored | howned
  · obtain ⟨row, hrow, rfl⟩ := World.stored_iff.mp hstored
    exact World.stored_iff.mpr ⟨row, (w.events_commitTx i).subset hrow, rfl⟩
  · obtain ⟨row, hrow, rfl⟩ := World.ownsRow_iff.mp howned
    cases haborted : w.aborted i with
    | true => simp [h.clean i haborted] at hrow
    | false =>
        refine World.stored_iff.mpr ⟨row, ?_, rfl⟩
        simp [World.commitTx, haborted, hrow]

theorem wp_commit (h : Holding py terms i idsToAck work w) :
    (custody py terms π).wp i (await .commit)
      (ends
        (fun _ w => Custody py terms w ∧
          (terms.lossless → ∀ id ∈ idsToAck, Committed py w id))
        fun _ _ => True) w := by
  refine wp_perform ⟨rfl, trivial⟩ (fun _ _ _ => trivial) ?_
  intro ch r w₁ _ hexec w' ⟨hinv, hrely⟩
  rcases exec_commit hexec with rfl | ⟨-, -, rfl⟩
  · cases r with
    | error e => trivial
    | ok a =>
        refine ⟨hinv, fun hlossless id hid => ?_⟩
        obtain ⟨fields, e, hfields, he, hpersist⟩ := h.acked hlossless id hid
        have hcommitted : Committed py (w.commitTx i) id :=
          ⟨fields, e, hfields, he, stored_commitTx h.inv hpersist⟩
        exact hcommitted.grows hrely.toGrows
  · trivial

theorem wp_withSession {α : Type} {body : App α} {R : α → World → Prop}
    (hstable : ∀ a {w w' : World}, R a w → w.Grows w' → Custody py terms w' → R a w')
    (hbody : (custody py terms π).wp i body (ends R fun _ _ => True) w) :
    (custody py terms π).wp i (Db.withSession (await .rollback) body)
      (ends R fun _ _ => True) w := by
  unfold Db.withSession
  refine wp_seq (wp_try (F := fun _ _ => True) hbody fun exc w _ => ?_) fun a w hR => ?_
  · exact wp_seq (wp_perform_any ⟨rfl, trivial⟩) fun _ _ _ => trivial
  · refine wp_seq (S := fun _ => R a) (wp_perform ⟨rfl, trivial⟩ (fun _ _ _ => trivial) ?_)
      fun _ _ hR => hR
    intro ch r w₁ _ hexec w' ⟨hinv, hrely⟩
    cases r with
    | error e => trivial
    | ok _ => exact hstable a hR ((exec_grows hexec).trans hrely.toGrows) hinv

theorem wp_streamStats :
    (custody py terms π).wp i Mq.streamStats (ends (fun _ _ => True) fun _ _ => True) w := by
  unfold Mq.streamStats
  refine wp_seq (wp_perform_any ⟨rfl, trivial⟩) fun _ _ _ => ?_
  refine wp_seq (wp_try (wp_perform_any ⟨rfl, trivial⟩) fun _ _ _ => trivial) fun _ _ _ => ?_
  exact wp_seq (wp_try (wp_perform_any ⟨rfl, trivial⟩) fun _ _ _ => trivial) fun _ _ _ => trivial

theorem wp_processEventStream (hrespected : terms.Respected py settings π i) :
    (custody py terms π).wp i (processEventStream py settings)
      (ends (fun _ _ => True) fun _ _ => True) w := by
  unfold processEventStream
  apply wp_seq (wp_readEventsBatch _)
  intro fresh w hfresh
  refine wp_seq (wp_reclaimStaleMessages (P := fun w => Custody py terms w ∧
      ∀ message ∈ fresh, Carries py w message.1 message.2) _
    (fun hP hframe hinv' => ⟨hinv', fun message hmessage =>
      (hP.2 message hmessage).grows hframe.toGrows⟩) hfresh) ?_
  intro reclaimed w ⟨⟨hinv, hfresh⟩, hreclaimed⟩
  have hholding : Holding py terms i []
      (fresh.map (fun md => (md.1, md.2, 1)) ++ reclaimed) w := by
    refine ⟨hinv, fun _ _ hid => (List.not_mem_nil hid).elim, fun message hmessage => ?_⟩
    rcases List.mem_append.mp hmessage with hmem | hmem
    · obtain ⟨md, hmd, rfl⟩ := List.mem_map.mp hmem
      exact hfresh md hmd
    · exact hreclaimed message hmem
  dsimp only
  split
  · exact wp_seq wp_streamStats fun _ _ _ => trivial
  · refine wp_seq (S := fun (acc : Progress) w => Custody py terms w ∧
        (terms.lossless → ∀ id ∈ acc.idsToAck, Committed py w id))
      (wp_withSession (fun _ _ _ hw hgrows hinv => ⟨hinv, fun hlossless id hid =>
        (hw.2 hlossless id hid).grows hgrows⟩) ?_) ?_
    · apply wp_seq (wp_processMessages hrespected hholding)
      intro acc w hacc
      exact wp_seq (wp_commit hacc) fun _ _ hw => hw
    · intro acc w ⟨hinv, hcommitted⟩
      refine wp_seq (S := fun _ _ => True) ?_ fun _ _ _ =>
        wp_seq wp_streamStats fun _ _ _ => trivial
      unfold Mq.ackMessages
      split
      · trivial
      · exact wp_perform_any ⟨rfl, hcommitted⟩

end Pass

end EventAnalytics.Workers
