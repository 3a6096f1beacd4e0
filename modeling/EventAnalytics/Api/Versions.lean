import EventAnalytics.Api.Authority

/-! Whether the optimistic lock loses updates. The new version is counted from the user
object that the session holds, which may have been loaded for the caller, the guard
compares the row with the number that the client has sent, and the two may differ. -/
namespace EventAnalytics.Api

open Library Library.Discipline Db Db.Accounts Services

def replay (users : List UserRow) (log : List Update) : List UserRow :=
  log.foldl (fun users e => replace users e.new) users

/-- The updates of one user are counted without a gap, each asked for with the
version that it replaced, and else only registrations have changed the table. -/
structure Versioned (calls : Nat → PatchCall) (u : UUID) (start : List UserRow)
    (w : Accounts) : Prop where
  replayed : ∃ enrolled, w.users = replay (start ++ enrolled) w.log
  exact : ∀ e ∈ w.log, e.new.id = u ∧ e.new.version = e.old.version + 1 ∧
    e.old.version = (calls e.session).body.version
  ordered : w.log.Pairwise fun a b => a.old.version < b.old.version
  below : ∀ e ∈ w.log, ∃ row, w.row? u = some row ∧ e.old.version < row.version
  single : w.written.length ≤ 1
  writer : ∀ jr ∈ w.written, jr.2.id = u ∧ ∃ row, w.row? u = some row ∧
    row.version = (calls jr.1).body.version ∧ jr.2.version = row.version + 1

/-- What a request can rely on: the version only grows, and its session is its own. -/
structure Abreast (u : UUID) (i : Nat) (w w' : Sessions) : Prop extends Untouched i w w' where
  rows : ∀ row, w.db.row? u = some row →
    ∃ row', w'.db.row? u = some row' ∧ row.version ≤ row'.version

theorem Abreast.refl (u : UUID) (i : Nat) (w : Sessions) : Abreast u i w w :=
  ⟨.refl i w, fun row hrow => ⟨row, hrow, le_rfl⟩⟩

theorem Abreast.trans {u : UUID} {i : Nat} {a b c : Sessions} (hab : Abreast u i a b)
    (hbc : Abreast u i b c) : Abreast u i a c := by
  refine ⟨hab.toUntouched.trans hbc.toUntouched, fun row hrow => ?_⟩
  obtain ⟨row', hrow', hle⟩ := hab.rows row hrow
  obtain ⟨row'', hrow'', hle'⟩ := hbc.rows row' hrow'
  exact ⟨row'', hrow'', hle.trans hle'⟩

/-- An `UPDATE` is issued once per call, for the client's version, with a version counted
from the object in the session, which is not ahead of the row. -/
def updateDuty (calls : Nat → PatchCall) (u : UUID) (i : Nat) (w : Sessions) : UserCmd → Prop
  | .updateUser v version values => v = u ∧ version = (calls i).body.version ∧
    w.db.own? i = none ∧ ∃ held row, (w.objects i).get? u = some held ∧
      values.version = held.row.version + 1 ∧ w.db.row? u = some row ∧
      held.row.version ≤ row.version
  | _ => True

/-- No `UPDATE` matches the committed row on behalf of a request whose session holds the
user in a version below the client's. -/
def currentReaders : Policy UserCmd Sessions Fate Arrival where
  step i fate w c :=
    match fate, c with
    | .ok, .updateUser u version _ =>
      match w.db.row? u, (w.objects i).get? u with
      | some row, some held => row.version ≠ version || version ≤ held.row.version
      | _, _ => true
    | _, _ => true
  crash := fun _ _ _ => true
  env := fun _ _ => true

section Sound

variable {calls : Nat → PatchCall} {u : UUID} {start : List UserRow} {w w' : Accounts} {i : Nat}

theorem Versioned.drop (h : Versioned calls u start w) (aborted : Nat → Bool) :
    Versioned calls u start { w with written := w.dropWrites i, aborted := aborted } :=
  ⟨h.replayed, h.exact, h.ordered, h.below, (List.length_filter_le _ _).trans h.single,
    fun jr hjr => h.writer jr (List.mem_of_mem_filter hjr)⟩

theorem Versioned.written_eq_nil (h : Versioned calls u start w) (hlocked : w.locked i u = false)
    (hown : w.own? i = none) : w.written = [] := by
  cases hwritten : w.written with
  | nil => rfl
  | cons jr rest =>
      exfalso
      have hmem : jr ∈ w.written := by simp [hwritten]
      by_cases hi : jr.1 = i
      · simp [own?, hwritten, hi] at hown
      · have hid := (h.writer jr hmem).1
        have : w.locked i u = true := by
          simp only [locked, List.any_eq_true]
          exact ⟨jr, hmem, by simp [hi, hid]⟩
        simp [this] at hlocked

theorem Versioned.written_eq (h : Versioned calls u start w) {jr : Nat × UserRow}
    (hjr : jr ∈ w.written) : w.written = [jr] := by
  have hlength : w.written.length = 1 :=
    le_antisymm h.single (List.length_pos_of_mem hjr)
  obtain ⟨only, honly⟩ := List.length_eq_one_iff.mp hlength
  rw [honly] at hjr ⊢
  rw [List.mem_singleton.mp hjr]

/-- The object is not ahead of the row, and not behind the client, so the row counts up
by one. -/
theorem Versioned.update {w : Sessions} (h : Versioned calls u start w.db) {version : Nat}
    {values : UserValues} {row : UserRow}
    (hduty : updateDuty calls u i w (.updateUser u version values))
    (hadm : currentReaders.step i .ok w (.updateUser u version values) = true)
    (hlocked : w.db.locked i u = false) (hrow : w.db.visible? i u = some row)
    (hversion : row.version = version) :
    Versioned calls u start
      { w.db with written := w.db.dropWrites i ++ [(i, values.apply row)] } := by
  obtain ⟨-, hasked, hown, held, row', hheld, hvalues, hrow', hle⟩ := hduty
  have hnil := h.written_eq_nil hlocked hown
  have hcommitted : w.db.row? u = some row := by simpa [visible?, hown] using hrow
  cases hcommitted.symm.trans hrow'
  have hdrop : w.db.dropWrites i = [] := by simp [dropWrites, hnil]
  have hcurrent : version ≤ held.row.version := by
    simpa [currentReaders, hcommitted, hheld, hversion] using hadm
  refine ⟨h.replayed, h.exact, h.ordered, h.below, by simp [hdrop], fun jr hjr => ?_⟩
  simp only [hdrop, List.nil_append, List.mem_singleton] at hjr
  subst hjr
  have hid : row.id = u := row?_id hcommitted
  refine ⟨hid, row, hcommitted, hversion.trans hasked, ?_⟩
  simp only [UserValues.apply]
  omega

theorem Versioned.commit (h : Versioned calls u start w) {old new : UserRow}
    (aborted : Nat → Bool) (hown : w.own? i = some new) (hold : w.row? new.id = some old) :
    Versioned calls u start
      { w with
        users := replace w.users new
        written := w.dropWrites i
        aborted := aborted
        log := w.log ++ [⟨i, old, new⟩] } := by
  have hmem := mem_of_own? hown
  obtain ⟨hid, row, hrow, hasked, hnew⟩ := h.writer _ hmem
  dsimp only at hid hnew
  cases hold.symm.trans (hid ▸ hrow)
  have hwritten : w.dropWrites i = [] := by simp [dropWrites, h.written_eq hmem]
  have hrow' : (replace w.users new).find? (fun row => row.id = u) = some new :=
    find?_replace hid hrow
  refine ⟨?_, fun e he => ?_, ?_, fun e he => ⟨new, hrow', ?_⟩, by simp [hwritten],
    by simp [hwritten]⟩
  · obtain ⟨enrolled, hreplayed⟩ := h.replayed
    refine ⟨enrolled, ?_⟩
    simp only [replay, List.foldl_append, List.foldl_cons, List.foldl_nil]
    rw [hreplayed, replay]
  · rcases List.mem_append.mp he with he | he
    · exact h.exact e he
    · rw [List.mem_singleton.mp he]
      exact ⟨hid, hnew, hasked⟩
  · refine List.pairwise_append.mpr ⟨h.ordered, by simp, fun a ha b hb => ?_⟩
    rw [List.mem_singleton.mp hb]
    obtain ⟨row, hfound, hlt⟩ := h.below a ha
    cases hfound.symm.trans hrow
    exact hlt
  · rcases List.mem_append.mp he with he | he
    · obtain ⟨row, hfound, hlt⟩ := h.below e he
      cases hfound.symm.trans hrow
      omega
    · rw [List.mem_singleton.mp he]
      dsimp only
      omega

theorem Versioned.step (h : Versioned calls u start w) {c : UserCmd} (hstep : DbStep i w c w')
    (hc : ∀ v version values, c ≠ .updateUser v version values) :
    Versioned calls u start w' := by
  cases hstep with
  | same => exact h
  | drop => exact h.drop _
  | write => exact absurd rfl (hc _ _ _)
  | commit aborted hown hold => exact h.commit aborted hown hold

theorem Versioned.rows (h : Versioned calls u start w) {c : UserCmd} (hstep : DbStep i w c w')
    (row : UserRow) (hrow : w.row? u = some row) :
    ∃ row', w'.row? u = some row' ∧ row.version ≤ row'.version := by
  cases hstep with
  | same | drop | write => exact ⟨row, hrow, le_rfl⟩
  | @commit old new aborted hown hold =>
      obtain ⟨hid, row', hrow', -, hnew⟩ := h.writer _ (mem_of_own? hown)
      cases hrow.symm.trans hrow'
      refine ⟨new, find?_replace hid hrow, ?_⟩
      dsimp only at hnew
      omega

theorem Versioned.exec {w w' : Sessions} (h : Versioned calls u start w.db) {fate : Fate}
    {c : UserCmd} {r : Except Exn c.Resp} (hadm : currentReaders.step i fate w c = true)
    (hduty : updateDuty calls u i w c) (hexec : sessionService.exec i fate w c = some (r, w')) :
    Versioned calls u start w'.db := by
  cases c with
  | updateUser v version values =>
      obtain rfl : v = u := hduty.1
      rcases service_cases hexec with ⟨s', heffect, rfl, hfate⟩ | ⟨-, rfl | rfl⟩
      · obtain rfl := hfate.resolve_right fun hc => by cases hc
        obtain ⟨r', hdb⟩ := sessionEffect_db heffect
        change Versioned calls v start s'.db
        rcases userEffect_update hdb with ⟨row, -, hlocked, hrow, hversion, hwritten⟩ | ⟨-, hsame⟩
        · rw [hwritten]
          exact h.update hduty hadm hlocked hrow hversion
        · rw [hsame]
          exact h
      · exact h
      · exact h.drop _
  | selectUser | selectRole | commit | rollback =>
      exact h.step (service_exec hexec).1 fun _ _ _ hc => by cases hc

theorem replay_append (users : List UserRow) (row : UserRow) (log : List Update)
    (hlog : ∀ e ∈ log, e.new.id ≠ row.id) :
    replay (users ++ [row]) log = replay users log ++ [row] := by
  induction log generalizing users with
  | nil => rfl
  | cons e log ih =>
      have hne : row.id ≠ e.new.id := Ne.symm (hlog e List.mem_cons_self)
      have hhead : replace (users ++ [row]) e.new = replace users e.new ++ [row] := by
        simp [replace, hne]
      change replay (replace (users ++ [row]) e.new) log = _
      rw [hhead, ih _ fun e' he' => hlog e' (List.mem_cons_of_mem e he')]
      rfl

theorem row?_enrol {row new : UserRow} (hrow : w.row? u = some row) :
    ({ w with users := w.users ++ [new] } : Accounts).row? u = some row := by
  rw [row?, List.find?_append]
  change (w.row? u).or _ = _
  rw [hrow, Option.some_or]

theorem Versioned.enrol (h : Versioned calls u start w) {new : UserRow}
    (hnone : w.row? new.id = none) :
    Versioned calls u start { w with users := w.users ++ [new] } := by
  refine ⟨?_, h.exact, h.ordered, fun e he => ?_, h.single, fun jr hjr => ?_⟩
  · obtain ⟨enrolled, hreplayed⟩ := h.replayed
    refine ⟨enrolled ++ [new], ?_⟩
    rw [← List.append_assoc, replay_append, ← hreplayed]
    intro e he hid
    obtain ⟨row, hrow, -⟩ := h.below e he
    rw [(h.exact e he).1] at hid
    rw [hid, hnone] at hrow
    cases hrow
  · obtain ⟨row, hrow, hlt⟩ := h.below e he
    exact ⟨row, row?_enrol hrow, hlt⟩
  · obtain ⟨hid, row, hrow, hwritten⟩ := h.writer jr hjr
    exact ⟨hid, row, row?_enrol hrow, hwritten⟩

end Sound

def versioned (calls : Nat → PatchCall) (u : UUID) (start : List UserRow) :
    Discipline UserCmd.Resp Exn Sessions Fate Arrival where
  machine := sessionService
  policy := currentReaders
  inv w := Versioned calls u start w.db
  rely := Abreast u
  duty := updateDuty calls u
  rely_refl := Abreast.refl u
  rely_trans := fun _ _ _ _ => Abreast.trans
  step_sound := by
    intro i fate w c r w' hadm hinv hduty hexec
    obtain ⟨hstep, hobjects⟩ := service_exec hexec
    exact ⟨hinv.exec hadm hduty hexec, fun j hj =>
      ⟨hstep.untouched hj (hobjects j hj), hinv.rows hstep⟩⟩
  crash_sound := by
    intro i w c _ hinv
    have hstep : DbStep i w.db .rollback (w.db.rollbackTx i) := .drop _
    exact ⟨hinv.drop _, fun j hj =>
      ⟨hstep.untouched hj (setAt_ne _ _ hj), hinv.rows hstep⟩⟩
  env_sound := by
    intro arrival w w' _ hinv henv
    obtain ⟨row, henrols, rfl⟩ := service_env henv
    have hnone := Option.isNone_iff_eq_none.mp (Bool.and_eq_true_iff.mp henrols).1
    exact ⟨hinv.enrol hnone, fun j =>
      ⟨⟨rfl, rfl, rfl, le_rfl⟩, fun row hrow => ⟨row, row?_enrol hrow, le_rfl⟩⟩⟩

section Call

variable {calls : Nat → PatchCall} {u : UUID} {start : List UserRow} {w w' : Sessions} {i : Nat}

def Unlogged (i : Nat) (w : Accounts) : Prop :=
  w.log.filter (fun e => e.session = i) = []

theorem Unlogged.abreast (h : Unlogged i w.db) (hw : Abreast u i w w') : Unlogged i w'.db :=
  hw.mine.trans h

theorem Unlogged.step {w w' : Accounts} {c : UserCmd} (h : Unlogged i w) (hstep : DbStep i w c w')
    (hc : c ≠ .commit) : Unlogged i w' := by
  cases hstep with
  | same | drop | write => exact h
  | commit => exact absurd rfl hc

/-- The request has no say yet: nothing written, nothing committed, and what its session
holds of the user is not ahead of the row. -/
structure Reading (u : UUID) (i : Nat) (w : Sessions) : Prop where
  own : w.db.own? i = none
  unlogged : Unlogged i w.db
  held : ∀ user ∈ (w.objects i).objects, user.row.id = u →
    ∃ row, w.db.row? u = some row ∧ user.row.version ≤ row.version

theorem Reading.abreast (h : Reading u i w) (hw : Abreast u i w w') : Reading u i w' := by
  refine ⟨hw.own.trans h.own, h.unlogged.abreast hw, fun user huser hid => ?_⟩
  rw [hw.objects] at huser
  obtain ⟨row, hrow, hle⟩ := h.held user huser hid
  obtain ⟨row', hrow', hle'⟩ := hw.rows row hrow
  exact ⟨row', hrow', hle.trans hle'⟩

theorem Reading.load (h : Reading u i w) {v : UUID} {row : UserRow} {fresh : LoadedUser}
    (hrow : w.db.visible? i v = some row) (hfresh : w.db.load row = some fresh) :
    Reading u i (w.put i ⟨w.db, (w.objects i).merge fresh⟩) := by
  refine ⟨h.own, h.unlogged, fun user huser hid => ?_⟩
  rw [Sessions.put_objects_self] at huser
  rcases IdentityMap.mem_merge huser with huser | rfl
  · exact h.held user huser hid
  · rw [load_row hfresh] at hid ⊢
    have hv : row.id = v := visible?_id hrow
    refine ⟨row, ?_, le_rfl⟩
    change w.db.row? u = some row
    rw [← hid, hv, ← hrow, visible?, h.own]

structure Holding (u : UUID) (i : Nat) (user : LoadedUser) (w : Sessions) : Prop
    extends Reading u i w where
  object : (w.objects i).get? u = some user

theorem Holding.abreast {user : LoadedUser} (h : Holding u i user w) (hw : Abreast u i w w') :
    Holding u i user w' :=
  ⟨h.toReading.abreast hw, by rw [hw.objects]; exact h.object⟩

theorem wp_selectUser {v : UUID} (h : Reading u i w) :
    (versioned calls u start).wp i (execute (.selectUser v))
      (ends (fun found w' => Reading u i w' ∧
        ∀ user, found = some user → (w'.objects i).get? v = some user)
        fun _ w' => Unlogged i w'.db) w := by
  apply wp_perform trivial (fun _ _ _ => trivial)
  intro fate r w₁ _ hexec w' ⟨_, hrely⟩
  have hunlogged : Unlogged i w'.db :=
    (h.unlogged.step (service_exec hexec).1 (by simp)).abreast hrely
  rcases service_cases hexec with ⟨s', heffect, rfl, -⟩ | ⟨⟨exc, rfl⟩, -⟩
  · rcases r with exc | found | user
    · exact hunlogged
    · rw [sessionEffect_selectUser_none heffect] at hrely
      rw [Sessions.put_session] at hrely
      exact ⟨h.abreast hrely, fun user huser => by cases huser⟩
    · obtain ⟨row, fresh, hrow, hfresh, -, hs'⟩ := sessionEffect_selectUser heffect
      obtain ⟨-, hobject, -⟩ := sessionEffect_selectUser_object heffect
      have hreading : Reading u i (w.put i s') := by
        rw [hs']
        exact h.load hrow hfresh
      refine ⟨hreading.abreast hrely, fun found hfound => ?_⟩
      rw [hrely.objects, ← Option.some.inj hfound]
      simpa using hobject
  · exact hunlogged

theorem wp_roleIdOf {user : LoadedUser} {data : UserAdminUpdate} (h : Holding u i user w) :
    (versioned calls u start).wp i (roleIdOf data)
      (ends (fun _ => Holding u i user) fun _ w' => Unlogged i w'.db) w := by
  unfold roleIdOf
  split
  · exact h
  · split
    · refine wp_seq (S := fun _ => Holding u i user)
        (wp_perform trivial (fun _ _ _ => trivial) ?_) ?_
      · intro fate r w₁ _ hexec w' ⟨_, hrely⟩
        have hunlogged : Unlogged i w'.db :=
          (h.unlogged.step (service_exec hexec).1 (by simp)).abreast hrely
        rcases service_cases hexec with ⟨s', heffect, rfl, -⟩ | ⟨⟨exc, rfl⟩, -⟩
        · cases r with
          | error exc => exact hunlogged
          | ok role =>
              rw [(sessionEffect_selectRole heffect).1, Sessions.put_session] at hrely
              exact h.abreast hrely
        · exact hunlogged
      · intro role w' h'
        cases role with
        | none => exact h'.unlogged
        | some role => exact h'
    · exact h.unlogged

def Written (calls : Nat → PatchCall) (u : UUID) (start : List UserRow) (i : Nat)
    (w : Sessions) : Prop :=
  Versioned calls u start w.db ∧ Unlogged i w.db ∧ ∃ new, w.db.own? i = some new

theorem wp_update {user : LoadedUser} {values : UserValues} (h : Holding u i user w)
    (hvalues : values.version = user.row.version + 1) :
    (versioned calls u start).wp i
      (execute (.updateUser u (calls i).body.version values))
      (ends (fun updated w' => Unlogged i w'.db ∧
          (updated = true → Written calls u start i w'))
        fun _ w' => Unlogged i w'.db) w := by
  refine wp_perform ⟨rfl, rfl, h.own, user, ?_⟩ (fun _ _ _ => trivial) ?_
  · have hid := IdentityMap.key_of_get? h.object
    obtain ⟨row, hrow, hle⟩ := h.held user (IdentityMap.mem_of_get? h.object) hid
    exact ⟨row, h.object, hvalues, hrow, hle⟩
  · intro fate r w₁ _ hexec w' ⟨hinv, hrely⟩
    have hunlogged : Unlogged i w'.db :=
      (h.unlogged.step (service_exec hexec).1 (by simp)).abreast hrely
    rcases service_cases hexec with ⟨s', heffect, rfl, -⟩ | ⟨⟨exc, rfl⟩, -⟩
    · rcases r with exc | updated
      · exact hunlogged
      · refine ⟨hunlogged, ?_⟩
        rintro rfl
        obtain ⟨row, -, -, hdb, -⟩ := sessionEffect_updateUser heffect
        refine ⟨hinv, hunlogged, values.apply row, hrely.own.trans ?_⟩
        change s'.db.own? i = _
        rw [hdb]
        exact own?_write _ _
    · exact hunlogged

theorem wp_selectWritten (h : Written calls u start i w) :
    (versioned calls u start).wp i (execute (.selectUser u))
      (ends (fun _ => Written calls u start i) fun _ w' => Unlogged i w'.db) w := by
  apply wp_perform trivial (fun _ _ _ => trivial)
  intro fate r w₁ _ hexec w' ⟨hinv, hrely⟩
  obtain ⟨-, hnone, new, hnew⟩ := h
  have hunlogged : Unlogged i w'.db :=
    (hnone.step (service_exec hexec).1 (by simp)).abreast hrely
  rcases service_cases hexec with ⟨s', heffect, rfl, -⟩ | ⟨⟨exc, rfl⟩, -⟩
  · rcases r with exc | found
    · exact hunlogged
    · obtain ⟨r', hdb⟩ := sessionEffect_db heffect
      have hsame : s'.db = w.db := userEffect_reads rfl hdb
      refine ⟨hinv, hunlogged, new, hrely.own.trans ?_⟩
      change s'.db.own? i = _
      rw [hsame, hnew]
  · exact hunlogged

theorem wp_updateUser (h : Reading u i w) :
    (versioned calls u start).wp i (updateUser u (calls i).body)
      (ends (fun _ => Written calls u start i) fun _ w' => Unlogged i w'.db) w := by
  unfold updateUser
  apply wp_seq (wp_selectUser h)
  rintro found w₁ ⟨h₁, hheld⟩
  cases found with
  | none => exact h₁.unlogged
  | some user =>
      apply wp_seq (wp_roleIdOf ⟨h₁, hheld user rfl⟩)
      intro roleId w₂ h₂
      apply wp_seq (wp_update h₂ rfl)
      rintro updated w₃ ⟨hunlogged, hwritten⟩
      cases updated with
      | false => exact hunlogged
      | true =>
          apply wp_seq (wp_selectWritten (hwritten rfl))
          intro again w₄ h₄
          cases again with
          | none => exact h₄.2.1
          | some _ => exact h₄

/-- The caller may be the user who is updated. -/
theorem wp_callerRead {credentials : Credentials} (h : Reading u i w) :
    (versioned calls u start).wp i (getCurrentUser credentials)
      (ends (fun _ => Reading u i) fun _ w' => Unlogged i w'.db) w := by
  cases credentials with
  | missing => exact h.unlogged
  | invalid => exact h.unlogged
  | subject caller =>
      apply wp_seq (wp_selectUser h)
      rintro found w₁ ⟨h₁, -⟩
      cases found with
      | none => exact h₁.unlogged
      | some user =>
          dsimp only
          split
          · exact h₁
          · exact h₁.unlogged

def Logged (i : Nat) (w : Accounts) : Prop :=
  ∃ e ∈ w.log, e.session = i

theorem Logged.mine {w w' : Accounts} (h : Logged i w)
    (hlog : w'.log.filter (fun e => e.session = i) = w.log.filter fun e => e.session = i) :
    Logged i w' := by
  obtain ⟨e, he, hi⟩ := h
  have hmem : e ∈ w'.log.filter fun e => e.session = i := by
    rw [hlog]
    exact List.mem_filter.mpr ⟨he, by simpa using hi⟩
  exact ⟨e, (List.mem_filter.mp hmem).1, hi⟩

theorem wp_commit (h : Written calls u start i w) :
    (versioned calls u start).wp i (execute .commit)
      (ends (fun _ w' => Logged i w'.db) fun _ w' => Unlogged i w'.db) w := by
  obtain ⟨hinv, hnone, new, hnew⟩ := h
  apply wp_perform trivial (fun _ _ _ => trivial)
  intro fate r w₁ _ hexec w' ⟨_, hrely⟩
  cases fate with
  | ok =>
      cases hexec
      obtain ⟨hid, row, hrow, -⟩ := hinv.writer _ (mem_of_own? hnew)
      dsimp only at hid
      have hlogged : (⟨i, row, new⟩ : Update) ∈ (w.db.commitTx i).log := by
        simp [commitTx, hnew, hid, hrow]
      have hdone : Logged i (w.db.commitTx i) := ⟨_, hlogged, rfl⟩
      exact hdone.mine hrely.mine
  | lost | rejected =>
      cases hexec
      exact hnone.abreast hrely

theorem wp_rollback {P : Accounts → Prop}
    (hP : ∀ {w' : Accounts}, w'.log.filter (fun e => e.session = i) =
      w.db.log.filter (fun e => e.session = i) → P w') {E : Exn → Sessions → Prop} :
    (versioned calls u start).wp i (execute .rollback) (ends (fun _ w' => P w'.db) E) w := by
  apply wp_perform trivial (fun _ _ _ => trivial)
  intro fate r w₁ _ hexec w' ⟨_, hrely⟩
  cases fate <;> cases hexec <;> exact hP hrely.mine

theorem wp_patchLogged (h : Reading u i w) (hsame : (calls i).userId = u) :
    (versioned calls u start).wp i
      (patchUser (calls i).credentials (calls i).userId (calls i).body)
      (ends (fun _ w' => Logged i w'.db) fun _ w' => Unlogged i w'.db) w := by
  subst hsame
  unfold patchUser Db.getDb withSession
  refine wp_seq (S := fun _ w' => Logged i w'.db)
    (wp_try (F := fun _ w' => Unlogged i w'.db) ?_ fun exc w₁ hnone => ?_) fun read w₁ hlogged => ?_
  · refine wp_seq (S := fun _ => Written calls _ start i)
      (wp_seq (wp_callerRead h) fun user w₁ h₁ => ?_) fun read w₁ h₁ =>
        wp_seq (wp_commit h₁) fun _ _ hlogged => hlogged
    refine wp_seq (S := fun _ => Reading _ i) ?_ fun caller w₂ h₂ =>
      wp_seq (wp_updateUser h₂) fun updated w₃ h₃ => h₃
    unfold requirePermission
    split
    · exact h₁
    · exact h₁.unlogged
  · apply wp_seq (S := fun _ w' => Unlogged i w'.db) (wp_rollback fun hlog => hlog.trans hnone)
    exact fun _ _ hnone' => hnone'
  · apply wp_seq (S := fun _ w' => Logged i w'.db) (wp_rollback fun hlog => hlogged.mine hlog)
    exact fun _ _ hlogged' => hlogged'

end Call

/-- No update is lost: each successful call counts one up from the row that it
replaced, no two carry one version, and the failed calls have changed nothing. -/
structure NoneLost (calls : Nat → PatchCall) (start : List UserRow)
    (cfg : Config UserCmd.Resp Exn Sessions UserRead) : Prop where
  counted : ∀ e ∈ cfg.world.db.log, e.new.version = e.old.version + 1
  distinct : cfg.world.db.log.Pairwise fun a b =>
    (calls a.session).body.version ≠ (calls b.session).body.version
  returned : ∀ i read, cfg.threads i = .running (.ret read) → Logged i cfg.world.db
  raised : ∀ i exc, cfg.threads i = .running (.raise exc) → Unlogged i cfg.world.db
  replayed : ∃ enrolled, cfg.world.db.users = replay (start ++ enrolled) cfg.world.db.log

theorem versioned_of_quiet {db : Accounts} (h : Quiet db) (calls : Nat → PatchCall) (u : UUID) :
    Versioned calls u db.users db := by
  refine ⟨⟨[], ?_⟩, ?_, ?_, ?_, ?_, ?_⟩ <;> simp [h.written, h.log, replay]

/-- No update is lost in a run of requests for one user in which no `UPDATE` matches for a
session that holds the user in a version below the client's. -/
theorem noneLost_of_currentReaders {calls : Nat → PatchCall} {u : UUID}
    (hsame : ∀ i, (calls i).userId = u) {db : Accounts} (hquiet : Quiet db)
    {cfg : Config UserCmd.Resp Exn Sessions UserRead}
    (hreach : Reach sessionService currentReaders (patchRequests calls db) cfg) :
    NoneLost calls db.users cfg := by
  have hkeeps := (keeps_ready (D := versioned calls u db.users) (w := .opened db)
    (versioned_of_quiet hquiet calls u)
    (fun i => patchUser (calls i).credentials (calls i).userId (calls i).body)
    fun i w' hlater => by
      have hreading : Reading u i (.opened db) := by
        refine ⟨?_, ?_, fun user huser => absurd huser List.not_mem_nil⟩
        · simp [Sessions.opened, own?, hquiet.written]
        · simp [Sessions.opened, Unlogged, hquiet.log]
      exact wp_patchLogged (hreading.abreast hlater.2) (hsame i)).reach hreach
  have hinv : Versioned calls u db.users cfg.world.db := hkeeps.inv
  refine ⟨fun e he => (hinv.exact e he).2.1, ?_, fun i read ht => hkeeps.returned ht, ?_,
    hinv.replayed⟩
  · refine hinv.ordered.imp_of_mem fun {a b} ha hb hlt => ?_
    rw [← (hinv.exact a ha).2.2, ← (hinv.exact b hb).2.2]
    exact hlt.ne
  · intro i exc ht
    have hthread := hkeeps.threads i
    rw [ht] at hthread
    exact hthread _ (Later.refl hinv)

def admins : Accounts :=
  { staff with
    users := [⟨8, "sub@example.com", "x", none, true, 1, 1, 0⟩,
      ⟨9, "root@example.com", "y", none, true, 1, 1, 0⟩] }

/-- Request 0 bets on version 2 before it is there; the others carry version 1. -/
def eagerCalls (i : Nat) : PatchCall where
  credentials := .subject 8
  userId := 9
  body := { fullName := some "Root", version := if i = 0 then 2 else 1 }

/-- Request 0 reads version 1, request 1 raises the row to 2, and the `UPDATE` of request 0
matches and leaves the row at 2. -/
theorem version_repeated :
    ¬ ∀ cfg, Reach sessionService .any (patchRequests eagerCalls admins) cfg →
      NoneLost eagerCalls admins.users cfg := by
  intro h
  obtain ⟨cfg, hreach, htest⟩ := exists_reach_of_run (M := sessionService) (π := .any)
    ([.start 0, .step 0 .ok, .step 0 .ok, .start 1] ++ List.replicate 6 (.step 1 .ok) ++
      List.replicate 4 (.step 0 .ok))
    (patchRequests eagerCalls admins)
    (fun cfg => cfg.world.db.log.map (fun e => (e.old.version, e.new.version)) = [(1, 2), (2, 2)])
    (by decide +kernel)
  have hlog : (2, 2) ∈ cfg.world.db.log.map fun e => (e.old.version, e.new.version) := by
    rw [of_decide_eq_true htest]
    simp
  obtain ⟨e, he, heq⟩ := List.mem_map.mp hlog
  have hcounted := (h cfg hreach).counted e he
  simp only [Prod.mk.injEq] at heq
  omega

/-- Request 0 is made by the user himself, and all carry version 1. -/
def rivalCalls (i : Nat) : PatchCall where
  credentials := .subject (if i = 0 then 9 else 8)
  userId := 9
  body := { fullName := some "Root", version := 1 }

/-- Both requests read version 1 before either writes, and one of them is refused. -/
theorem noneLost_of_currentReaders_conflict :
    ∃ cfg, Reach sessionService currentReaders (patchRequests rivalCalls admins) cfg ∧
      (∃ read, cfg.threads 0 = .running (.ret read)) ∧
      (∃ exc, cfg.threads 1 = .running (.raise exc)) ∧
      cfg.world.db.log.map (fun e => (e.session, e.new.version)) = [(0, 2)] ∧
      NoneLost rivalCalls admins.users cfg := by
  obtain ⟨cfg, hreach, htest⟩ := exists_reach_of_run (M := sessionService) (π := currentReaders)
    ([.start 0, .step 0 .ok, .start 1, .step 1 .ok, .step 1 .ok] ++
      List.replicate 5 (.step 0 .ok) ++ [.step 1 .ok, .step 1 .ok])
    (patchRequests rivalCalls admins)
    (fun cfg => (cfg.threads 0).result?.isSome && refused (cfg.threads 1) &&
      decide (cfg.world.db.log.map (fun e => (e.session, e.new.version)) = [(0, 2)]))
    (by decide +kernel)
  simp only [Bool.and_eq_true, decide_eq_true_eq] at htest
  obtain ⟨⟨hreturned, hrefused⟩, hlog⟩ := htest
  obtain ⟨read, hended⟩ := Option.isSome_iff_exists.mp hreturned
  have hsame : ∀ i, (rivalCalls i).userId = 9 := fun _ => rfl
  exact ⟨cfg, hreach, ⟨read, Thread.result?_eq_some.mp hended⟩, exists_raise_of_refused hrefused,
    hlog, noneLost_of_currentReaders hsame ⟨rfl, rfl⟩ hreach⟩

end EventAnalytics.Api
