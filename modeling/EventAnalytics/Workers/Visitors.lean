import EventAnalytics.Api.Winner
import EventAnalytics.Workers.Message
import EventAnalytics.Workers.Sources

/-! Whether the visitors that Redis counts on a day are the users of the day's stored
events. Redis counts a user when a row is inserted, and the transaction of the row
commits or not some time later. -/
namespace EventAnalytics.Workers

open Library Library.Discipline Db Services

/-- The user of a row is among the visitors of the row's day, while they are counted. -/
def counted (w : World) (row : EventRow) : Bool :=
  row.userId.all fun u =>
    !w.hllLive (dayOf row.serverTs) || (w.hll (dayOf row.serverTs)).contains u

def sawUser (rows : List EventRow) (day : Nat) (u : UUID) : Bool :=
  rows.any fun row => dayOf row.serverTs = day && row.userId = some u

/-- The rows that are stored or inserted by an open transaction. -/
def rowsInSight (w : World) : List EventRow :=
  w.events ++ w.uncommitted.map Prod.snd

def rowsWithout (i : Nat) (w : World) : List EventRow :=
  w.events ++ (w.dropRows i).map Prod.snd

def allCounted (i : Nat) (w : World) : Bool :=
  (w.ownRows i).all (counted w)

/-- The transaction may be lost: its users are not counted, or seen anyway. -/
def forgettable (i : Nat) (w : World) : Bool :=
  (w.ownRows i).all fun row => row.userId.all fun u =>
    !w.hllLive (dayOf row.serverTs) || !(w.hll (dayOf row.serverTs)).contains u ||
      sawUser (rowsWithout i w) (dayOf row.serverTs) u

/-- The user is counted on the day of the row that was inserted last, and before the
key of that day has expired; or nothing depends on it. -/
def onItsDay (i : Nat) (w : World) (day : Nat) (u : UUID) : Bool :=
  w.hllLive day && ((w.ownRows i).getLast?.any (fun row => dayOf row.serverTs = day) ||
    allCounted i w && sawUser (rowsInSight w) day u)

/-- Who inserts a row has its user counted on the row's day, and what is counted is
not rolled back. -/
def punctual : BackendPolicy where
  step i ch w c :=
    match ch, c with
    | .ok, .now => true
    | _, .now => allCounted i w
    | .raiseBefore, .pfadd .. => allCounted i w
    | _, .pfadd day u => onItsDay i w day u
    | .ok, .insertEvent row .request =>
      w.stored row.eventId || w.ownsRow i row.eventId || counted w row
    | .raiseAfter, .insertEvent .. | .raiseAfter, .selectEvent _ => forgettable i w
    | _, .rollback => forgettable i w
    | _, _ => true
  crash i w _ := forgettable i w
  env := fun _ _ => true

/-- Every visitor has an event, and what is stored is counted. -/
structure Tallied (w : World) : Prop where
  seen : ∀ d u, w.hllLive d = true → u ∈ w.hll d → sawUser (rowsInSight w) d u = true
  stored : ∀ row ∈ w.events, counted w row = true
  clean : ∀ i, w.aborted i = true → w.ownRows i = []

/-- What a session can rely on: nobody touches its rows, and what is counted stays so. -/
structure Punctual (i : Nat) (w w' : World) : Prop where
  ownRows : w'.ownRows i = w.ownRows i
  counted : ∀ row, counted w row = true → counted w' row = true

/-- A session counts the user of the row that it has inserted last, and commits when
all its rows are counted. -/
def visitDuty (i : Nat) (w : World) : Cmd → Prop
  | .pfadd _ u => ∃ rows row, w.ownRows i = rows ++ [row] ∧ row.userId = some u ∧
      ∀ r ∈ rows, counted w r = true
  | .commit => allCounted i w = true
  | _ => True

section Sound

variable {w w' : World} {i j : Nat}

theorem counted_iff {row : EventRow} : counted w row = true ↔
    ∀ u, row.userId = some u → w.hllLive (dayOf row.serverTs) = true →
      u ∈ w.hll (dayOf row.serverTs) := by
  unfold counted
  cases row.userId with
  | none => simp
  | some u => cases w.hllLive (dayOf row.serverTs) <;> simp

theorem sawUser_iff {rows : List EventRow} {d : Nat} {u : UUID} :
    sawUser rows d u = true ↔
      ∃ row ∈ rows, dayOf row.serverTs = d ∧ row.userId = some u := by
  simp [sawUser]

/-- The visitors of a day only become more, until they are no longer counted. -/
structure Gathers (w w' : World) : Prop where
  live : ∀ d, w'.hllLive d = true → w.hllLive d = true
  hll : ∀ d, w.hll d ⊆ w'.hll d

theorem Gathers.counted (h : Gathers w w') {row : EventRow} (hrow : counted w row = true) :
    counted w' row = true := by
  rw [counted_iff] at hrow ⊢
  exact fun u hu hlive => h.hll _ (hrow u hu (h.live _ hlive))

theorem hllLive_congr (hclock : w'.clock = w.clock) (hexpiry : w'.hllExpiry = w.hllExpiry)
    (d : Nat) : w'.hllLive d = w.hllLive d := by
  simp only [World.hllLive, hclock, hexpiry]

theorem Gathers.of_eq (hclock : w'.clock = w.clock) (hhll : w'.hll = w.hll)
    (hexpiry : w'.hllExpiry = w.hllExpiry) : Gathers w w' where
  live d hlive := by rwa [hllLive_congr hclock hexpiry] at hlive
  hll d := by rw [hhll]; exact fun _ h => h

theorem gathers_expireVisitors (day seconds : Nat) :
    Gathers w (w.expireVisitors day seconds) where
  live d hlive := by
    by_cases hnone : (w.visitors day).isEmpty = true
    · have hsame : (w.expireVisitors day seconds).hllLive d = w.hllLive d := by
        apply hllLive_congr
        · rfl
        · exact if_pos hnone
      rwa [hsame] at hlive
    · have hexpiry : (w.expireVisitors day seconds).hllExpiry =
          setAt w.hllExpiry day (some (w.clock + seconds * 1000)) := if_neg hnone
      by_cases hd : d = day
      · subst hd
        by_contra hdead
        simp [World.visitors, hdead] at hnone
      · rw [World.hllLive, hexpiry, setAt_ne _ _ hd] at hlive
        exact hlive
  hll d := fun _ h => h

theorem gathers_addVisitor {day : Nat} (hlive : w.hllLive day = true) (u : UUID) :
    Gathers w (w.addVisitor day u) where
  live d h := by
    have hsame : (w.addVisitor day u).hllLive d = w.hllLive d := by
      apply hllLive_congr
      · rfl
      · exact if_pos hlive
    rwa [hsame] at h
  hll d := by
    simp only [World.addVisitor, World.visitors, hlive, if_true]
    by_cases hd : d = day
    · subst hd
      simp
    · rw [setAt_ne _ _ hd]
      exact fun _ h => h

/-- Nobody is counted, and no row comes or goes. -/
structure Unvisited (w w' : World) : Prop where
  clock : w'.clock = w.clock
  hll : w'.hll = w.hll
  hllExpiry : w'.hllExpiry = w.hllExpiry
  events : w'.events = w.events
  uncommitted : w'.uncommitted = w.uncommitted
  aborted : w'.aborted = w.aborted

theorem Unvisited.refl (w : World) : Unvisited w w := ⟨rfl, rfl, rfl, rfl, rfl, rfl⟩

def visits : Cmd → Bool
  | .pfadd .. | .expireHll .. | .insertEvent .. | .commit | .rollback => true
  | _ => false

theorem effect_unvisited {c : Cmd} {r : Except Exn c.Resp} (hvisits : visits c = false)
    (heffect : effect i w c = some (r, w')) : Unvisited w w' := by
  cases c <;> simp only [visits, Bool.true_eq_false] at hvisits <;> simp only [effect] at heffect
  case setNx e ttl =>
    split at heffect
    · cases heffect
      exact .refl _
    · split at heffect <;> cases heffect <;> exact ⟨rfl, rfl, rfl, rfl, rfl, rfl⟩
  case setXx e ttl =>
    split at heffect
    · cases heffect
      exact .refl _
    · cases heffect
      split <;> exact ⟨rfl, rfl, rfl, rfl, rfl, rfl⟩
  case setDone e ttl =>
    split at heffect <;> cases heffect <;> exact ⟨rfl, rfl, rfl, rfl, rfl, rfl⟩
  case selectEvent e =>
    split at heffect <;> cases heffect <;> exact .refl _
  all_goals
    cases heffect
    exact ⟨rfl, rfl, rfl, rfl, rfl, rfl⟩

theorem exec_visits {ch : Choice} {c : Cmd} {r : Except Exn c.Resp}
    (hexec : backend.exec i ch w c = some (r, w')) :
    Unvisited w w' ∨
      (∃ day u, c = .pfadd day u ∧ ch ≠ .raiseBefore ∧ w' = w.addVisitor day u) ∨
      (∃ day seconds, c = .expireHll day seconds ∧ w' = w.expireVisitors day seconds) ∨
      (∃ row origin, c = .insertEvent row origin ∧ w.aborted i = false ∧
        w' = { w with uncommitted := w.uncommitted ++ [(i, row)] }) ∨
      (ch = .raiseAfter ∧ w' = w.abortTx i ∧
        ((∃ row origin, c = .insertEvent row origin) ∨ ∃ e, c = .selectEvent e)) ∨
      (c = .commit ∧ w' = w.commitTx i) ∨ (c = .rollback ∧ w' = w.rollbackTx i) := by
  by_cases hvisits : visits c = true
  · cases c <;> simp only [visits, Bool.false_eq_true] at hvisits
    case pfadd day u =>
      cases ch <;> cases hexec
      · exact .inr (.inl ⟨day, u, rfl, by simp, rfl⟩)
      · exact .inl (.refl _)
      · exact .inr (.inl ⟨day, u, rfl, by simp, rfl⟩)
    case expireHll day seconds =>
      rcases exec_stream rfl rfl rfl hexec with ⟨rfl, -⟩ | ⟨rfl, -⟩
      · exact .inl (.refl _)
      · exact .inr (.inr (.inl ⟨day, seconds, rfl, rfl⟩))
    case insertEvent row origin =>
      rcases exec_insertEvent hexec with ⟨-, -, haborted, -, -, -, rfl⟩ | ⟨-, -, -, -, rfl⟩ |
        ⟨-, rfl, -⟩ | ⟨-, rfl, hch⟩
      · exact .inr (.inr (.inr (.inl ⟨row, origin, rfl, haborted, rfl⟩)))
      · exact .inl (.refl _)
      · exact .inl (.refl _)
      · exact .inr (.inr (.inr (.inr (.inl ⟨hch, rfl, .inl ⟨row, origin, rfl⟩⟩))))
    case commit =>
      rcases exec_commit hexec with rfl | ⟨rfl, -⟩
      · exact .inr (.inr (.inr (.inr (.inr (.inl ⟨rfl, rfl⟩)))))
      · exact .inl (.refl _)
    case rollback =>
      exact .inr (.inr (.inr (.inr (.inr (.inr ⟨rfl, exec_rollback hexec⟩)))))
  · have hvisits : visits c = false := by simpa using hvisits
    cases ch with
    | ok => exact .inl (effect_unvisited hvisits hexec)
    | raiseBefore =>
        cases hexec
        cases c <;> first | exact .inl (.refl _) | simp [visits] at hvisits
    | raiseAfter =>
        cases hexec
        by_cases hselect : ∃ e, c = .selectEvent e
        · obtain ⟨e, rfl⟩ := hselect
          exact .inr (.inr (.inr (.inr (.inl ⟨rfl, rfl, .inr ⟨e, rfl⟩⟩))))
        · have hafter : afterEffect i w c = ((effect i w c).map Prod.snd).getD w := by
            cases c <;> first | rfl | exact absurd ⟨_, rfl⟩ hselect | simp [visits] at hvisits
          rw [hafter]
          cases heffect : effect i w c with
          | none => exact .inl (.refl _)
          | some rw => exact .inl (effect_unvisited hvisits heffect)

theorem mem_ownRows {row : EventRow} : row ∈ w.ownRows i ↔ (i, row) ∈ w.uncommitted := by
  simp [World.ownRows]

theorem mem_rowsInSight {row : EventRow} :
    row ∈ rowsInSight w ↔ row ∈ w.events ∨ ∃ j, row ∈ w.ownRows j := by
  simp [rowsInSight, mem_ownRows]

theorem mem_rowsWithout {row : EventRow} :
    row ∈ rowsWithout i w ↔ row ∈ w.events ∨ ∃ j, j ≠ i ∧ row ∈ w.ownRows j := by
  simp [rowsWithout, World.dropRows, mem_ownRows, and_comm]

theorem sawUser_mono {rows rows' : List EventRow} (h : rows ⊆ rows') {d : Nat} {u : UUID}
    (hsaw : sawUser rows d u = true) : sawUser rows' d u = true := by
  obtain ⟨row, hrow, hday⟩ := sawUser_iff.mp hsaw
  exact sawUser_iff.mpr ⟨row, h hrow, hday⟩

theorem Tallied.keep (h : Tallied w) (hgathers : Gathers w w') (hevents : w'.events = w.events)
    (huncommitted : w'.uncommitted = w.uncommitted) (haborted : w'.aborted = w.aborted)
    (hseen : ∀ d u, w'.hllLive d = true → u ∈ w'.hll d →
      u ∈ w.hll d ∨ sawUser (rowsInSight w) d u = true) : Tallied w' where
  seen d u hlive hu := by
    have hrows : rowsInSight w' = rowsInSight w := by simp only [rowsInSight, hevents, huncommitted]
    rw [hrows]
    rcases hseen d u hlive hu with hold | hsaw
    · exact h.seen d u (hgathers.live d hlive) hold
    · exact hsaw
  stored row hrow := by
    rw [hevents] at hrow
    exact hgathers.counted (h.stored row hrow)
  clean j hj := by
    rw [haborted] at hj
    rw [World.ownRows, huncommitted]
    exact h.clean j hj

theorem Tallied.unvisited (h : Tallied w) (hsame : Unvisited w w') : Tallied w' := by
  have hgathers : Gathers w w' := .of_eq hsame.clock hsame.hll hsame.hllExpiry
  refine h.keep hgathers hsame.events hsame.uncommitted hsame.aborted fun d u _ hu => ?_
  rw [hsame.hll] at hu
  exact .inl hu

theorem Tallied.addVisitor (h : Tallied w) {day : Nat} {u : UUID}
    (hadm : onItsDay i w day u = true) (hduty : visitDuty i w (.pfadd day u)) :
    Tallied (w.addVisitor day u) := by
  obtain ⟨rows, row, hrows, hu, -⟩ := hduty
  simp only [onItsDay, Bool.and_eq_true, Bool.or_eq_true, hrows, List.getLast?_append,
    List.getLast?_singleton, Option.some_or, Option.any_some, decide_eq_true_eq] at hadm
  obtain ⟨hlive, hadm⟩ := hadm
  have hgathers := gathers_addVisitor hlive u
  have hsaw : sawUser (rowsInSight w) day u = true := by
    rcases hadm with hday | ⟨-, hsaw⟩
    · have hmem : row ∈ w.ownRows i := by simp [hrows]
      exact sawUser_iff.mpr ⟨row, mem_rowsInSight.mpr (.inr ⟨i, hmem⟩), hday, hu⟩
    · exact hsaw
  refine h.keep hgathers rfl rfl rfl fun d v _ hv => ?_
  by_cases hd : d = day
  · subst hd
    simp only [World.addVisitor, World.visitors, hlive, if_true, setAt_self, List.mem_append,
      List.mem_singleton] at hv
    rcases hv with hv | rfl
    · exact .inl hv
    · exact .inr hsaw
  · simp only [World.addVisitor, setAt_ne _ _ hd] at hv
    exact .inl hv

theorem Tallied.insert (h : Tallied w) (haborted : w.aborted i = false) (row : EventRow) :
    Tallied { w with uncommitted := w.uncommitted ++ [(i, row)] } where
  seen d u hlive hu := by
    apply sawUser_mono _ (h.seen d u hlive hu)
    intro r hr
    simp only [rowsInSight, List.map_append, List.mem_append] at hr ⊢
    tauto
  stored r hr := h.stored r hr
  clean j hj := by
    have hne : i ≠ j := by
      rintro rfl
      simp [haborted] at hj
    have hnone := h.clean j hj
    simp only [World.ownRows, List.filter_append, List.map_append] at hnone ⊢
    simp [hnone, hne]

theorem Tallied.drop (h : Tallied w) (hforget : forgettable i w = true)
    (hevents : w'.events = w.events) (huncommitted : w'.uncommitted = w.dropRows i)
    (haborted : ∀ j, j ≠ i → w'.aborted j = w.aborted j) (hgathers : Gathers w w')
    (hhll : w'.hll = w.hll) : Tallied w' where
  seen d u hlive hu := by
    rw [hhll] at hu
    have hlive' := hgathers.live d hlive
    have hrows : rowsInSight w' = rowsWithout i w := by
      simp only [rowsInSight, rowsWithout, hevents, huncommitted]
    rw [hrows]
    obtain ⟨row, hrow, rfl, huser⟩ := sawUser_iff.mp (h.seen d u hlive' hu)
    rcases mem_rowsInSight.mp hrow with hstored | ⟨j, hj⟩
    · exact sawUser_iff.mpr ⟨row, mem_rowsWithout.mpr (.inl hstored), rfl, huser⟩
    · by_cases hji : j = i
      · subst hji
        have hown := List.all_eq_true.mp hforget row hj
        simpa [huser, hlive', hu] using hown
      · exact sawUser_iff.mpr ⟨row, mem_rowsWithout.mpr (.inr ⟨j, hji, hj⟩), rfl, huser⟩
  stored row hrow := by
    rw [hevents] at hrow
    exact hgathers.counted (h.stored row hrow)
  clean j hj := by
    rw [World.ownRows, huncommitted]
    by_cases hji : j = i
    · subst hji
      exact World.ownRows_dropRows_self w j
    · rw [World.ownRows_dropRows_ne w hji]
      exact h.clean j ((haborted j hji).symm.trans hj)

theorem Tallied.commit (h : Tallied w) (hcounted : allCounted i w = true) :
    Tallied (w.commitTx i) where
  seen d u hlive hu := by
    apply sawUser_mono _ (h.seen d u hlive hu)
    intro row hrow
    simp only [rowsInSight, World.commitTx, List.mem_append]
    rcases mem_rowsInSight.mp hrow with hstored | ⟨j, hj⟩
    · left
      split
      · exact hstored
      · exact List.mem_append_left _ hstored
    · by_cases hji : j = i
      · subst hji
        left
        cases haborted : w.aborted j with
        | true => simp [h.clean j haborted] at hj
        | false => simp [hj]
      · right
        simpa [World.dropRows, hji] using ⟨j, mem_ownRows.mp hj, hji⟩
  stored row hrow := by
    have hcounted : counted w row = true := by
      simp only [World.commitTx] at hrow
      split at hrow
      · exact h.stored row hrow
      · rcases List.mem_append.mp hrow with hrow | hrow
        · exact h.stored row hrow
        · exact List.all_eq_true.mp hcounted row hrow
    exact hcounted
  clean j hj := by
    by_cases hji : j = i
    · subst hji
      exact World.ownRows_dropRows_self w j
    · rw [World.ownRows, World.commitTx, World.ownRows_dropRows_ne w hji]
      simp only [World.commitTx, setAt_ne _ _ hji] at hj
      exact h.clean j hj

theorem onItsDay_of_admitted {ch : Choice} {day : Nat} {u : UUID} (hch : ch ≠ .raiseBefore)
    (hadm : punctual.step i ch w (.pfadd day u) = true) : onItsDay i w day u = true := by
  cases ch <;> first | exact absurd rfl hch | exact hadm

theorem gathers_exec {ch : Choice} {c : Cmd} {r : Except Exn c.Resp}
    (hadm : punctual.step i ch w c = true) (hexec : backend.exec i ch w c = some (r, w')) :
    Gathers w w' := by
  rcases exec_visits hexec with hsame | ⟨day, u, rfl, hch, rfl⟩ | ⟨day, seconds, -, rfl⟩ |
    ⟨row, origin, -, -, rfl⟩ | ⟨-, rfl, -⟩ | ⟨-, rfl⟩ | ⟨-, rfl⟩
  · exact .of_eq hsame.clock hsame.hll hsame.hllExpiry
  · have hday := onItsDay_of_admitted hch hadm
    exact gathers_addVisitor (Bool.and_eq_true_iff.mp hday).1 u
  · exact gathers_expireVisitors day seconds
  · exact .of_eq rfl rfl rfl
  · exact .of_eq rfl rfl rfl
  · exact .of_eq rfl rfl rfl
  · exact .of_eq rfl rfl rfl

theorem Tallied.exec (h : Tallied w) {ch : Choice} {c : Cmd} {r : Except Exn c.Resp}
    (hadm : punctual.step i ch w c = true) (hduty : visitDuty i w c)
    (hexec : backend.exec i ch w c = some (r, w')) : Tallied w' := by
  have hgathers := gathers_exec hadm hexec
  rcases exec_visits hexec with hsame | ⟨day, u, rfl, hch, rfl⟩ | ⟨day, seconds, rfl, rfl⟩ |
    ⟨row, origin, rfl, haborted, rfl⟩ | ⟨rfl, rfl, hc⟩ | ⟨rfl, rfl⟩ | ⟨rfl, rfl⟩
  · exact h.unvisited hsame
  · exact h.addVisitor (onItsDay_of_admitted hch hadm) hduty
  · exact h.keep hgathers rfl rfl rfl fun _ _ _ hu => .inl hu
  · exact h.insert haborted row
  · have hforget : forgettable i w = true := by
      rcases hc with ⟨row, origin, rfl⟩ | ⟨e, rfl⟩ <;> exact hadm
    exact h.drop hforget rfl rfl (fun _ hj => setAt_ne _ _ hj) hgathers rfl
  · exact h.commit hduty
  · have hforget : forgettable i w = true := by cases ch <;> exact hadm
    exact h.drop hforget rfl rfl (fun _ hj => setAt_ne _ _ hj) hgathers rfl

theorem Tallied.env (h : Tallied w) {e : EnvAct} (henv : backend.env e w = some w') :
    Tallied w' ∧ Gathers w w' := by
  cases e with
  | produce entry =>
      cases henv
      exact ⟨h.unvisited ⟨rfl, rfl, rfl, rfl, rfl, rfl⟩, .of_eq rfl rfl rfl⟩
  | tick ms =>
      cases henv
      have hgathers : Gathers w { w with clock := w.clock + ms } := by
        refine ⟨fun d hlive => ?_, fun _ _ hu => hu⟩
        unfold World.hllLive at hlive ⊢
        cases hexpiry : w.hllExpiry d with
        | none => rfl
        | some expiresAt =>
            simp only [hexpiry, decide_eq_true_eq] at hlive ⊢
            omega
      exact ⟨h.keep hgathers rfl rfl rfl fun _ _ _ hu => .inl hu, hgathers⟩

theorem punctual_of_frame (hframe : w.Frame j w') (hgathers : Gathers w w') : Punctual j w w' :=
  ⟨hframe.ownRows, fun _ => hgathers.counted⟩

end Sound

def punctuality : Discipline Cmd.Resp Exn World Choice EnvAct where
  machine := backend
  policy := punctual
  inv := Tallied
  rely := Punctual
  duty := visitDuty
  rely_refl := fun _ _ => ⟨rfl, fun _ h => h⟩
  rely_trans := fun _ _ _ _ hab hbc =>
    ⟨hbc.ownRows.trans hab.ownRows, fun row h => hbc.counted row (hab.counted row h)⟩
  step_sound := fun _ _ _ _ _ _ hadm hinv hduty hexec =>
    ⟨hinv.exec hadm hduty hexec, fun _ hj =>
      punctual_of_frame (exec_frame hj hexec) (gathers_exec hadm hexec)⟩
  crash_sound := fun i w _ hadm hinv =>
    have hgathers : Gathers w (w.rollbackTx i) := .of_eq rfl rfl rfl
    ⟨hinv.drop hadm rfl rfl (fun _ hj => setAt_ne _ _ hj) hgathers rfl,
      fun _ hj => punctual_of_frame (crash_frame w hj) hgathers⟩
  env_sound := fun _ _ _ _ hinv henv =>
    have hkept := hinv.env henv
    ⟨hkept.1, fun j => punctual_of_frame (env_frame henv j) hkept.2⟩

section Sessions

variable {w w' : World} {i : Nat} {py : Python} {settings : Settings} {α : Type}

def NoRows (i : Nat) (w : World) : Prop := w.ownRows i = []

def AllCounted (i : Nat) (w : World) : Prop := ∀ row ∈ w.ownRows i, counted w row = true

theorem allCounted_iff : allCounted i w = true ↔ AllCounted i w := by
  simp [allCounted, AllCounted]

/-- An assertion about the rows of a session that holds when there are none. -/
structure OfRows (i : Nat) (P : World → Prop) : Prop where
  kept : ∀ w w', w'.ownRows i = w.ownRows i →
    (∀ row, counted w row = true → counted w' row = true) → P w → P w'
  none : ∀ w, NoRows i w → P w

theorem ofRows_noRows : OfRows i (NoRows i) :=
  ⟨fun _ _ hrows _ h => hrows.trans h, fun _ h => h⟩

theorem ofRows_allCounted : OfRows i (AllCounted i) where
  kept w w' hrows hcounted h row hrow := by
    rw [hrows] at hrow
    exact hcounted row (h row hrow)
  none w h row hrow := by
    rw [NoRows] at h
    simp [h] at hrow

theorem OfRows.later {P : World → Prop} (hP : OfRows i P) (h : P w)
    (hlater : punctuality.Later i w w') : P w' :=
  hP.kept w w' hlater.2.ownRows hlater.2.counted h

theorem noRows_rollbackTx : NoRows i (w.rollbackTx i) := World.ownRows_dropRows_self w i

theorem noRows_abortTx : NoRows i (w.abortTx i) := World.ownRows_dropRows_self w i

/-- Commands that neither insert nor count nor commit. -/
def plain : Cmd → Bool
  | .insertEvent .. | .pfadd .. | .commit => false
  | _ => true

theorem OfRows.exec {P : World → Prop} (hP : OfRows i P) {ch : Choice} {c : Cmd}
    {r : Except Exn c.Resp} (hplain : plain c = true) (hadm : punctual.step i ch w c = true)
    (hexec : backend.exec i ch w c = some (r, w')) (h : P w) : P w' := by
  have hcounted : ∀ row, counted w row = true → counted w' row = true :=
    fun _ => (gathers_exec hadm hexec).counted
  rcases exec_visits hexec with hsame | ⟨day, u, rfl, -⟩ | ⟨day, seconds, -, rfl⟩ |
    ⟨row, origin, rfl, -⟩ | ⟨-, rfl, -⟩ | ⟨rfl, -⟩ | ⟨-, rfl⟩
  · refine hP.kept w w' ?_ hcounted h
    simp only [World.ownRows, hsame.uncommitted]
  · cases hplain
  · exact hP.kept w _ rfl hcounted h
  · cases hplain
  · exact hP.none _ (World.ownRows_dropRows_self w i)
  · cases hplain
  · exact hP.none _ noRows_rollbackTx

theorem duty_of_plain {c : Cmd} (hplain : plain c = true) : punctuality.duty i w c := by
  cases c <;> trivial

theorem wp_plain {p : App α} {P : World → Prop} (hP : OfRows i P)
    (hp : p.Issues fun c => plain c = true) (h : P w) :
    punctuality.wp i p (ends (fun _ => P) fun _ => P) w := by
  have hwp : punctuality.wp i p (fun _ => P) w := by
    refine wp_issues hp (fun _ _ hplain _ => duty_of_plain hplain) ?_ ?_ h
    · intro c w _ _ _ w' hlater
      exact hP.later (hP.none _ noRows_rollbackTx) hlater
    · intro c w ch r w₁ hplain h hadm hexec w' hlater
      exact hP.later (hP.exec hplain hadm hexec h) hlater
  refine wp_mono (fun o w h => ?_) hwp
  cases o <;> first | exact h | trivial

/-- The row is the last that the session has inserted, and the others are counted. -/
def LastRow (i : Nat) (row : EventRow) (w : World) : Prop :=
  ∃ rows, w.ownRows i = rows ++ [row] ∧ ∀ r ∈ rows, counted w r = true

theorem LastRow.later {row : EventRow} (h : LastRow i row w)
    (hlater : punctuality.Later i w w') : LastRow i row w' := by
  obtain ⟨rows, hrows, hcounted⟩ := h
  exact ⟨rows, hlater.2.ownRows.trans hrows, fun r hr => hlater.2.counted r (hcounted r hr)⟩

theorem LastRow.allCounted {row : EventRow} (h : LastRow i row w)
    (hrow : counted w row = true) : AllCounted i w := by
  obtain ⟨rows, hrows, hcounted⟩ := h
  intro r hr
  rw [hrows, List.mem_append, List.mem_singleton] at hr
  rcases hr with hr | rfl
  · exact hcounted r hr
  · exact hrow

theorem AllCounted.insert (h : AllCounted i w) (row : EventRow) :
    LastRow i row { w with uncommitted := w.uncommitted ++ [(i, row)] } :=
  ⟨w.ownRows i, by simp [World.ownRows, List.filter_append], h⟩

theorem wp_insertEvent_counted (h : AllCounted i w) (row : EventRow) (origin : Origin) :
    punctuality.wp i (await (.insertEvent row origin))
      (ends (fun inserted w' => (inserted = true ∧ LastRow i row w' ∧
          (origin = .request → counted w' row = true)) ∨ inserted = false ∧ AllCounted i w')
        fun _ => AllCounted i) w := by
  apply wp_perform trivial (fun _ _ _ => trivial)
  intro ch r w₁ hadm hexec w₂ hlater
  have hgathers := gathers_exec hadm hexec
  rcases exec_insertEvent hexec with ⟨rfl, rfl, -, hstored, howns, -, rfl⟩ | ⟨rfl, -, -, -, rfl⟩ |
    ⟨rfl, rfl, -⟩ | ⟨rfl, rfl, -⟩
  · refine .inl ⟨rfl, (h.insert row).later hlater, fun horigin => ?_⟩
    subst horigin
    have hcounted : counted w row = true := by
      simpa only [punctuality, punctual, hstored, howns, Bool.false_or] using hadm
    exact hlater.2.counted row (hgathers.counted hcounted)
  · exact .inr ⟨rfl, ofRows_allCounted.later h hlater⟩
  · exact ofRows_allCounted.later h hlater
  · exact ofRows_allCounted.later (ofRows_allCounted.none _ noRows_abortTx) hlater

theorem wp_readClock {row : EventRow} (h : LastRow i row w) :
    punctuality.wp i (await .now) (ends (fun _ => LastRow i row) fun _ => AllCounted i) w := by
  apply wp_perform trivial (fun _ _ _ => trivial)
  intro ch r w₁ hadm hexec w₂ hlater
  cases ch with
  | ok =>
      cases hexec
      exact h.later hlater
  | raiseBefore =>
      cases hexec
      exact ofRows_allCounted.later (allCounted_iff.mp hadm) hlater
  | raiseAfter =>
      cases hexec
      exact ofRows_allCounted.later (allCounted_iff.mp hadm) hlater

theorem LastRow.addVisitor {row : EventRow} (h : LastRow i row w) {day : Nat} {u : UUID}
    (hu : row.userId = some u) (hday : onItsDay i w day u = true) :
    AllCounted i (w.addVisitor day u) := by
  obtain ⟨rows, hrows, hcounted⟩ := h
  simp only [onItsDay, Bool.and_eq_true, Bool.or_eq_true, hrows, List.getLast?_append,
    List.getLast?_singleton, Option.some_or, Option.any_some, decide_eq_true_eq] at hday
  obtain ⟨hlive, hday⟩ := hday
  have hgathers := gathers_addVisitor hlive u
  rcases hday with hday | ⟨hall, -⟩
  · refine LastRow.allCounted ⟨rows, hrows, fun r hr => hgathers.counted (hcounted r hr)⟩ ?_
    rw [counted_iff]
    intro v hv _
    rw [hu] at hv
    cases hv
    simp [World.addVisitor, hday]
  · intro r hr
    exact hgathers.counted (allCounted_iff.mp hall r hr)

theorem wp_pfadd {row : EventRow} (h : LastRow i row w) {u : UUID} (hu : row.userId = some u)
    (day : Nat) :
    punctuality.wp i (await (.pfadd day u))
      (ends (fun _ => AllCounted i) fun _ => AllCounted i) w := by
  have hduty : punctuality.duty i w (.pfadd day u) := by
    obtain ⟨rows, hrows, hcounted⟩ := h
    exact ⟨rows, row, hrows, hu, hcounted⟩
  apply wp_perform hduty (fun _ _ _ => trivial)
  intro ch r w₁ hadm hexec w₂ hlater
  have hall : AllCounted i w₂ := by
    apply ofRows_allCounted.later _ hlater
    cases ch with
    | raiseBefore =>
        cases hexec
        exact allCounted_iff.mp hadm
    | ok =>
        cases hexec
        exact h.addVisitor hu hadm
    | raiseAfter =>
        cases hexec
        exact h.addVisitor hu hadm
  cases r <;> exact hall

theorem wp_countUser_counted {row : EventRow} (h : LastRow i row w) :
    punctuality.wp i (countUser true row)
      (ends (fun _ => AllCounted i) fun _ => AllCounted i) w := by
  unfold countUser
  cases hu : row.userId with
  | none => exact h.allCounted (by simp [counted, hu])
  | some u =>
      refine wp_seq (wp_readClock h) fun today w₁ h₁ => ?_
      refine wp_seq (wp_pfadd h₁ hu _) fun _ w₂ h₂ => ?_
      exact wp_plain ofRows_allCounted (Prog.issues_perform rfl) h₂

theorem wp_persistRow_counted (h : AllCounted i w) (origin : Origin) (make : Nat → EventRow) :
    punctuality.wp i (persistRow settings origin make)
      (ends (fun _ => AllCounted i) fun _ => AllCounted i) w := by
  unfold persistRow
  refine wp_seq (wp_plain ofRows_allCounted (Prog.issues_perform rfl) h) fun serverTs w₁ h₁ => ?_
  refine wp_seq (wp_insertEvent_counted h₁ _ _) fun inserted w₂ h₂ => ?_
  refine wp_seq (S := fun _ => AllCounted i) ?_ fun _ w₃ h₃ => ?_
  · rcases h₂ with ⟨rfl, hlast, -⟩ | ⟨rfl, hall⟩
    · exact wp_countUser_counted hlast
    · exact hall
  · exact wp_seq (wp_plain ofRows_allCounted (Prog.issues_perform rfl) h₃) fun _ w₄ h₄ => h₄

theorem wp_persistEvent_counted (h : AllCounted i w) (origin : Origin) (data : Dict) :
    punctuality.wp i (persistEvent py settings origin data)
      (ends (fun _ => AllCounted i) fun _ => AllCounted i) w := by
  unfold persistEvent
  refine wp_seq (wp_plain ofRows_allCounted (Prog.issues_ofExcept _) h) fun decoded w₁ h₁ => ?_
  cases decoded with
  | invalid => exact h₁
  | row make => exact wp_persistRow_counted h₁ origin make

theorem plain_deadLetterIfDue (id : Nat) (data : Dict) (n : Nat) (reason : String)
    (acc : Progress) :
    (deadLetterIfDue py settings id data n reason acc).Issues fun c => plain c = true := by
  unfold deadLetterIfDue
  split
  · refine Prog.Issues.bind ?_ fun _ => trivial
    refine Prog.Issues.bind (Prog.issues_perform rfl) fun _ => ?_
    refine Prog.Issues.bind (Prog.issues_perform rfl) fun _ => ?_
    exact Prog.Issues.tryExcept (Prog.issues_perform rfl) fun _ => trivial
  · trivial

theorem wp_processMessage_counted (h : AllCounted i w) (message : Nat × Json × Nat)
    (acc : Progress) :
    punctuality.wp i (processMessage py settings message acc)
      (ends (fun _ => AllCounted i) fun _ => AllCounted i) w := by
  obtain ⟨id, body, n⟩ := message
  cases body with
  | obj data =>
      have hletter : ∀ (reason : String) {w : World}, AllCounted i w →
          punctuality.wp i (deadLetterIfDue py settings id data n reason acc)
            (ends (fun _ => AllCounted i) fun _ => AllCounted i) w := fun reason _ h =>
        wp_plain ofRows_allCounted (plain_deadLetterIfDue id data n reason acc) h
      simp only [processMessage]
      split
      · exact hletter _ h
      · refine wp_try (F := fun _ => AllCounted i) ?_ fun exc w₁ h₁ => hletter _ h₁
        refine wp_seq (wp_persistEvent_counted h _ data) fun persisted w₁ h₁ => ?_
        cases persisted with
        | invalid => exact hletter _ h₁
        | inserted => exact h₁
        | conflict => exact h₁
  | _ => exact h

theorem wp_processMessages_counted (h : AllCounted i w) (work : List (Nat × Json × Nat))
    (acc : Progress) :
    punctuality.wp i (processMessages py settings work acc)
      (ends (fun _ => AllCounted i) fun _ => AllCounted i) w := by
  induction work generalizing w acc with
  | nil => exact h
  | cons message work ih =>
      exact wp_seq (wp_processMessage_counted h message acc) fun acc w₁ h₁ => ih h₁ acc

theorem wp_rollback_noRows :
    punctuality.wp i (await .rollback) (ends (fun _ => NoRows i) fun _ => NoRows i) w := by
  apply wp_perform trivial (fun _ _ _ => trivial)
  intro ch r w₁ _ hexec w₂ hlater
  have hnone : NoRows i w₂ := by
    apply ofRows_noRows.later _ hlater
    rw [exec_rollback hexec]
    exact noRows_rollbackTx
  cases r <;> exact hnone

theorem wp_committed_noRows {body : App α}
    (h : punctuality.wp i body (ends (fun _ => AllCounted i) fun _ _ => True) w) :
    punctuality.wp i (withSession (await .rollback) (body >>= fun a => do
        await .commit
        pure a))
      (ends (fun _ => NoRows i) fun _ => NoRows i) w := by
  unfold withSession
  refine wp_seq (S := fun _ _ => True) (wp_try (F := fun _ _ => True) ?_ fun exc w₁ _ => ?_)
    fun a w₁ _ => ?_
  · refine wp_seq h fun a w₁ h₁ => ?_
    exact wp_seq (wp_perform_any (allCounted_iff.mpr h₁)) fun _ _ _ => trivial
  · exact wp_seq wp_rollback_noRows fun _ _ hnone => hnone
  · exact wp_seq wp_rollback_noRows fun _ _ hnone => hnone

theorem plain_readEventsBatch (count : Nat) :
    (Mq.readEventsBatch py settings count).Issues fun c => plain c = true := by
  unfold Mq.readEventsBatch Mq.xreadgroup
  refine Prog.Issues.bind ?_ fun _ => Prog.issues_ofExcept _
  split
  · trivial
  · exact Prog.issues_perform rfl

theorem plain_reclaimStaleMessages (count : Nat) :
    (Mq.reclaimStaleMessages py settings count).Issues fun c => plain c = true := by
  unfold Mq.reclaimStaleMessages
  refine Prog.Issues.bind (Prog.Issues.tryExcept ?_ fun _ => trivial) fun claimed => ?_
  · rw [Prog.map_eq]
    exact Prog.Issues.bind (Prog.issues_perform rfl) fun _ => trivial
  · cases claimed with
    | none => trivial
    | some entries =>
        refine Prog.Issues.bind ?_ fun _ => ?_
        · exact Prog.Issues.tryExcept (Prog.issues_perform rfl) fun _ => trivial
        · exact Prog.Issues.bind (Prog.issues_ofExcept _) fun _ => trivial

theorem plain_streamStats : Mq.streamStats.Issues fun c => plain c = true := by
  unfold Mq.streamStats
  refine Prog.Issues.bind (Prog.issues_perform rfl) fun _ => ?_
  refine Prog.Issues.bind ?_ fun _ => ?_
  · exact Prog.Issues.tryExcept (Prog.issues_perform rfl) fun _ => trivial
  · refine Prog.Issues.bind ?_ fun _ => trivial
    exact Prog.Issues.tryExcept (Prog.issues_perform rfl) fun _ => trivial

theorem plain_ackMessages (ids : List Nat) :
    (Mq.ackMessages ids).Issues fun c => plain c = true := by
  unfold Mq.ackMessages
  split
  · trivial
  · exact Prog.issues_perform rfl

theorem wp_processEventStream_noRows (h : NoRows i w) :
    punctuality.wp i (processEventStream py settings)
      (ends (fun _ => NoRows i) fun _ => NoRows i) w := by
  unfold processEventStream
  refine wp_seq (wp_plain ofRows_noRows (plain_readEventsBatch _) h) fun fresh w₁ h₁ => ?_
  refine wp_seq (wp_plain ofRows_noRows (plain_reclaimStaleMessages _) h₁) fun reclaimed w₂ h₂ => ?_
  dsimp only
  split
  · exact wp_seq (wp_plain ofRows_noRows plain_streamStats h₂) fun _ w₃ h₃ => h₃
  · refine wp_seq (wp_committed_noRows ?_) fun acc w₃ h₃ => ?_
    · exact wp_ends_mono (fun _ _ h => h) (fun _ _ _ => trivial)
        (wp_processMessages_counted (ofRows_allCounted.none w₂ h₂) _ _)
    · refine wp_seq (wp_plain ofRows_noRows (plain_ackMessages _) h₃) fun _ w₄ h₄ => ?_
      exact wp_seq (wp_plain ofRows_noRows plain_streamStats h₄) fun _ w₅ h₅ => h₅

theorem wp_ingestOne_counted (h : AllCounted i w) (payload : EventCreate)
    (ip userAgent : Option String) :
    punctuality.wp i (ingestOne py settings payload ip userAgent)
      (ends (fun _ => AllCounted i) fun _ => AllCounted i) w := by
  have hplain : ∀ {c : Cmd} {w : World}, plain c = true → AllCounted i w →
      punctuality.wp i (await c) (ends (fun _ => AllCounted i) fun _ => AllCounted i) w :=
    fun hc h => wp_plain ofRows_allCounted (Prog.issues_perform hc) h
  unfold ingestOne claimIdempotency alreadyInDb Mq.enqueueEvent
  refine wp_seq (hplain rfl h) fun claimed w₁ h₁ => ?_
  cases claimed with
  | false =>
      simp only [Bool.not_false, if_true]
      refine wp_seq (hplain rfl h₁) fun found w₂ h₂ => ?_
      cases found <;> exact h₂
  | true =>
      simp only [Bool.not_true, Bool.false_eq_true, if_false]
      split
      · exact wp_seq (hplain rfl h₁) fun _ w₂ h₂ => h₂
      · unfold ingestSync markDone
        refine wp_seq (hplain rfl h₁) fun serverTs w₂ h₂ => ?_
        refine wp_seq (wp_insertEvent_counted h₂ _ _) fun inserted w₃ h₃ => ?_
        have hall : AllCounted i w₃ := by
          rcases h₃ with ⟨-, hlast, hcounted⟩ | ⟨-, hall⟩
          · exact hlast.allCounted (hcounted rfl)
          · exact hall
        refine wp_seq (hplain rfl hall) fun _ w₄ h₄ => ?_
        cases inserted <;> exact h₄

theorem wp_ingestAll_counted (h : AllCounted i w) (request : Api.Request)
    (events : List EventCreate) (acc : EventBatchResult) :
    punctuality.wp i (Api.ingestAll py settings request events acc)
      (ends (fun _ => AllCounted i) fun _ => AllCounted i) w := by
  induction events generalizing w acc with
  | nil => exact h
  | cons item events ih => exact wp_seq (wp_ingestOne_counted h item _ _) fun r w₁ h₁ => ih h₁ _

theorem wp_limited {handler : App α} (h : NoRows i w) (clientHost userId : Option String)
    (hhandler : ∀ w', AllCounted i w' →
      punctuality.wp i handler (ends (fun _ => AllCounted i) fun _ => AllCounted i) w') :
    punctuality.wp i (Api.getDb do
        let _ ← Core.enforceRateLimit settings clientHost userId true
        handler)
      (ends (fun _ => NoRows i) fun _ => NoRows i) w := by
  apply wp_committed_noRows
  refine wp_seq (S := fun _ => AllCounted i) ?_ fun _ w₁ h₁ => ?_
  · exact wp_ends_mono (fun _ _ h => h) (fun _ _ _ => trivial)
      (wp_plain ofRows_allCounted
        (Core.issues_enforceRateLimit (N := fun c => plain c = true) rfl rfl
          (fun _ _ _ _ _ => rfl) _ _ _ _)
        (ofRows_allCounted.none w h))
  · exact wp_ends_mono (fun _ _ h => h) (fun _ _ _ => trivial) (hhandler w₁ h₁)

theorem wp_task_noRows (h : NoRows i w) (task : Api.Task) :
    punctuality.wp i (task.run py settings) (ends (fun _ => NoRows i) fun _ => NoRows i) w := by
  cases task with
  | single request body =>
      refine wp_seq (wp_limited h _ _ fun w₁ h₁ => ?_) fun _ w₂ h₂ => h₂
      exact wp_seq (wp_ingestOne_counted h₁ body _ _) fun _ w₂ h₂ => h₂
  | batch request events =>
      refine wp_seq (wp_limited h _ _ fun w₁ h₁ => ?_) fun _ w₂ h₂ => h₂
      exact wp_ingestAll_counted h₁ request events _
  | pass => exact wp_seq (wp_processEventStream_noRows h) fun _ w₁ h₁ => h₁

end Sessions

/-- What the metrics service sees of the stores: the rows and the answers of `PFCOUNT`. -/
structure Shows (w : World) (v : Reports) : Prop where
  events : v.warehouse.events = w.events
  visitors : ∀ d : Nat, v.visitors d = (w.visitors d).toFinset.card

/-- The visitors of a day are the users of its stored events, and the two counts
agree. -/
structure Tracked (w : World) (d : Nat) : Prop where
  users : ∀ u, u ∈ w.visitors d ↔
    ∃ row ∈ w.events, dayOf row.serverTs = d ∧ row.userId = some u
  counts : ∀ v, Shows w v → ∀ settings n dau v₁ v₂,
    (getApproxDauHll (some d)).run reportsStep v = some (.ok n, v₁) →
    (inReports (computeDau settings d)).run reportsStep v = some (.ok dau, v₂) → n = dau

section Counts

variable {w : World} {v v' : Reports} {d : Nat}

theorem run_getApproxDauHll : (getApproxDauHll (some d)).run reportsStep v =
    some (.ok (v.visitors d), v) := rfl

theorem run_computeDau_count {settings : Settings} {dau : Nat}
    (h : (inReports (computeDau settings d)).run reportsStep v = some (.ok dau, v')) :
    dau = distinct (userIn (midnight d) (midnight (d + 1)) none) v.warehouse.events := by
  simp only [computeDau, inReports_bind] at h
  obtain ⟨u, v₁, hlock, h⟩ := run_ask h
  obtain ⟨n, v₂, hcount, h⟩ := run_ask h
  obtain ⟨insertedAt, v₃, -, h⟩ := run_ask h
  obtain ⟨updatedAt, v₄, -, h⟩ := run_ask h
  obtain ⟨u', v₅, -, h⟩ := run_ask h
  obtain ⟨cachedAt, v₆, -, h⟩ := run_ask h
  obtain ⟨u'', v₇, -, h⟩ := run_ask h
  cases h
  rw [(step_countUsers hcount).1, (step_lock hlock).1]

theorem userIn_eq_some {row : EventRow} {u : UUID} :
    userIn (midnight d) (midnight (d + 1)) none row = some u ↔
      dayOf row.serverTs = d ∧ row.userId = some u := by
  have hday : midnight d ≤ row.serverTs ∧ (row.serverTs : Int) < midnight (d + 1) ↔
      dayOf row.serverTs = d := by
    unfold midnight dayOf
    omega
  unfold userIn
  simp [← hday, and_assoc]

/-- Where no row is uncommitted, the tally is what the claims of both counts need. -/
theorem Tallied.tracked (h : Tallied w) (hrest : ∀ i, NoRows i w)
    (hlive : w.hllLive d = true) : Tracked w d := by
  have hvisitors : w.visitors d = w.hll d := if_pos hlive
  have husers : ∀ u, u ∈ w.visitors d ↔
      ∃ row ∈ w.events, dayOf row.serverTs = d ∧ row.userId = some u := by
    intro u
    rw [hvisitors]
    constructor
    · intro hu
      obtain ⟨row, hrow, hday, huser⟩ := sawUser_iff.mp (h.seen d u hlive hu)
      rcases mem_rowsInSight.mp hrow with hstored | ⟨i, hi⟩
      · exact ⟨row, hstored, hday, huser⟩
      · rw [hrest i] at hi
        exact absurd hi List.not_mem_nil
    · rintro ⟨row, hrow, rfl, huser⟩
      exact counted_iff.mp (h.stored row hrow) u huser hlive
  refine ⟨husers, fun v hv settings n dau v₁ v₂ happrox hexact => ?_⟩
  rw [run_getApproxDauHll] at happrox
  cases happrox
  rw [run_computeDau_count hexact, hv.visitors, hv.events, distinct]
  congr 1
  ext u
  rw [List.mem_toFinset, mem_values, husers]
  simp only [userIn_eq_some]

end Counts

/-- No transaction is open, and the visitors of every day are those of its events. -/
structure Quiet (w : World) : Prop where
  uncommitted : w.uncommitted = []
  tracked : ∀ d, w.hllLive d = true → Tracked w d

theorem Quiet.ownRows {w : World} (h : Quiet w) (i : Nat) : NoRows i w := by
  simp [NoRows, World.ownRows, h.uncommitted]

theorem Quiet.tallied {w : World} (h : Quiet w) : Tallied w where
  seen d u hlive hu := by
    have hvisitors : w.visitors d = w.hll d := if_pos hlive
    rw [← hvisitors] at hu
    obtain ⟨row, hrow, hday, huser⟩ := ((h.tracked d hlive).users u).mp hu
    exact sawUser_iff.mpr ⟨row, mem_rowsInSight.mpr (.inl hrow), hday, huser⟩
  stored row hrow := by
    rw [counted_iff]
    intro u hu hlive
    have hvisitors : w.visitors (dayOf row.serverTs) = w.hll (dayOf row.serverTs) := if_pos hlive
    rw [← hvisitors]
    exact ((h.tracked _ hlive).users u).mpr ⟨row, hrow, rfl, hu⟩
  clean i _ := h.ownRows i

theorem Quiet.keeps {w : World} (h : Quiet w) (py : Python) (settings : Nat → Settings)
    (tasks : Nat → Api.Task) :
    punctuality.Keeps (fun i _ => NoRows i) (Api.service py settings tasks w) := by
  apply keeps_ready h.tallied
  intro i w' hlater
  have hnone : NoRows i w' := hlater.2.ownRows.trans (h.ownRows i)
  have hcrash : ∀ v v', punctuality.Later i (punctuality.machine.crash i v) v' → NoRows i v' :=
    fun v v' hv => hv.2.ownRows.trans noRows_rollbackTx
  refine wp_mono (fun o v hv => ?_) (wp_crashing hcrash (wp_task_noRows hnone (tasks i)))
  cases o <;> exact hv

/-- In every run of punctual requests and passes, in either mode, and in every state in
which none is in progress, Redis and the database count the same visitors. -/
theorem tracked_of_punctual (py : Python) (settings : Nat → Settings) (tasks : Nat → Api.Task)
    {w : World} (hw : Quiet w) {cfg : Config Cmd.Resp Exn World Api.Response}
    (hreach : Reach backend punctual (Api.service py settings tasks w) cfg)
    (hrest : ∀ i, (cfg.threads i).inProgress = false) {d : Nat}
    (hlive : cfg.world.hllLive d = true) : Tracked cfg.world d := by
  have hstart := hw.keeps py settings tasks
  have hkeeps := hstart.reach hreach
  refine hkeeps.inv.tracked (fun i => ?_) hlive
  rcases hkeeps.atRest (hrest i) with ⟨p, hready⟩ | ⟨o, hnone⟩
  · exact (hstart.ready hreach hready).ownRows.trans (hw.ownRows i)
  · exact hnone

def visitText (event user : String) : Dict :=
  [("event_id", .str event), ("user_id", .str user), ("session_id", .str "s1"),
    ("event_type", .str "view"), ("properties", .obj []), ("client_ts", .null),
    ("ip_hash", .null), ("user_agent", .null)]

def twoVisitors : Python :=
  .ofTable
    [("visit 1", visitText "1" "7"), ("visit 2", visitText "2" "8"), ("visit 3", visitText "3" "7")]
    [("1", 1), ("2", 2), ("3", 3), ("7", 7), ("8", 8)]

def visit (event user : UUID) : EventCreate :=
  { eventId := event, userId := some user, sessionId := "s1", eventType := .view }

def visitOf (event user : UUID) : Api.Task := .single ⟨none, none, none, "u1"⟩ (visit event user)

def visitsAndPasses : Nat → Api.Task
  | 0 => visitOf 1 7
  | 1 => visitOf 2 8
  | 2 => visitOf 3 7
  | _ => .pass

def visiting (mode : String) : Config Cmd.Resp Exn World Api.Response :=
  Api.service twoVisitors (fun _ => { ingestMode := mode }) visitsAndPasses (World.init 0)

theorem quiet_init : Quiet (World.init 0) where
  uncommitted := rfl
  tracked d hlive := by
    have hnone : ∀ i, NoRows i (World.init 0) := fun i => rfl
    refine Tallied.tracked ⟨fun d u _ hu => ?_, fun row hrow => ?_, fun i _ => rfl⟩ hnone hlive
    · exact absurd hu List.not_mem_nil
    · exact absurd hrow List.not_mem_nil

/-- What the request writes itself is stored and not counted, although nothing fails. -/
theorem sync_visit_uncounted :
    ¬ ∀ cfg, Reach backend noFaults (visiting "sync") cfg →
      (∀ i, (cfg.threads i).inProgress = false) →
      ∀ d, cfg.world.hllLive d = true → Tracked cfg.world d := by
  intro h
  obtain ⟨cfg, hreach, hrest, htest⟩ := exists_rest_of_run (M := backend) (π := noFaults)
    (.start 0 :: List.replicate 15 (.step 0 .ok)) 1 (visiting "sync")
    (fun cfg => cfg.world.hllLive 0 && sawUser cfg.world.events 0 7 && (cfg.world.hll 0).isEmpty)
    (fun _ => rfl) (by decide) (by decide +kernel)
  simp only [Bool.and_eq_true, List.isEmpty_iff] at htest
  obtain ⟨⟨hlive, hsaw⟩, hnone⟩ := htest
  have hvisitor := ((h cfg hreach hrest 0 hlive).users 7).mpr (sawUser_iff.mp hsaw)
  simp [World.visitors, hnone] at hvisitor

/-- The events of the two visitors are stored, and a second one of the first is counted by a
pass that dies before its commit. -/
theorem tracked_of_punctual_lost_visit :
    ∃ cfg, Reach backend punctual (visiting "async") cfg ∧ cfg.world.hll 0 = [7, 8, 7] ∧
      cfg.world.events.length = 2 ∧ cfg.world.stream.pel.length = 1 ∧ Tracked cfg.world 0 := by
  obtain ⟨cfg, hreach, hrest, htest⟩ := exists_rest_of_run (M := backend) (π := punctual)
    (.start 0 :: List.replicate 13 (.step 0 .ok) ++ .start 1 :: List.replicate 13 (.step 1 .ok) ++
      .start 3 :: List.replicate 21 (.step 3 .ok) ++ .start 2 :: List.replicate 13 (.step 2 .ok) ++
      .start 4 :: List.replicate 7 (.step 4 .ok) ++ [.crash 4]) 5
    (visiting "async")
    (fun cfg => cfg.world.hllLive 0 && decide (cfg.world.hll 0 = [7, 8, 7] ∧
      cfg.world.events.length = 2 ∧ cfg.world.stream.pel.length = 1))
    (fun _ => rfl) (by decide) (by decide +kernel)
  obtain ⟨hlive, hstores⟩ := Bool.and_eq_true_iff.mp htest
  obtain ⟨hcounted, hevents, hpel⟩ := of_decide_eq_true hstores
  exact ⟨cfg, hreach, hcounted, hevents, hpel,
    tracked_of_punctual _ _ _ quiet_init hreach hrest hlive⟩

end EventAnalytics.Workers
