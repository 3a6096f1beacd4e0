import EventAnalytics.Library.Between
import EventAnalytics.Services.Registration
import EventAnalytics.Services.UserSession

/-! The sessions of any number of concurrent requests over one database, each with the
objects that it has loaded. Registrations commit beside them. -/
namespace EventAnalytics.Services

open Library Library.Discipline Db Db.Accounts

structure Sessions where
  db : Accounts
  objects : Nat → IdentityMap fun user : LoadedUser => user.row.id

namespace Sessions

def session (w : Sessions) (i : Nat) : UserSession := ⟨w.db, w.objects i⟩

def put (w : Sessions) (i : Nat) (s : UserSession) : Sessions :=
  ⟨s.db, setAt w.objects i s.objects⟩

@[simp] theorem put_objects_self (w : Sessions) (i : Nat) (s : UserSession) :
    (w.put i s).objects i = s.objects := setAt_self _ _ _

theorem put_session (w : Sessions) (i : Nat) : w.put i (w.session i) = w := by
  rw [put, session, setAt_same rfl]

def opened (db : Accounts) : Sessions := ⟨db, fun _ => .empty⟩

end Sessions

/-- The row is one that a registration adds: of a new user, with the role `client_app`. -/
def enrols (w : Accounts) (row : UserRow) : Bool :=
  (w.row? row.id).isNone && (w.load row).any fun user => user.role.name = "client_app"

inductive Arrival
  | registered (row : UserRow)

/-- A commit that raises has not happened, and a rollback that is lost is made by the
server when the connection ends. -/
def sessionService : Machine UserCmd.Resp Exn Sessions Fate Arrival where
  exec i fate w c :=
    match fate, c with
    | .ok, c => (sessionEffect i (w.session i) c).map fun answer => (answer.1, w.put i answer.2)
    | _, .commit => some (.error .dbApiError, w)
    | _, .rollback =>
      (sessionEffect i (w.session i) .rollback).map fun answer => (answer.1, w.put i answer.2)
    | .lost, _ => some (.error .dbApiError, w)
    | .rejected, _ => some (.error .dbApiError, { w with db := w.db.abortTx i })
  crash i w := w.put i ⟨w.db.rollbackTx i, .empty⟩
  env
    | .registered row, w =>
      if enrols w.db row then
        some { w with db := { w.db with users := w.db.users ++ [row] } }
      else none

/-- What a statement of session `i` can make of the database. -/
inductive DbStep (i : Nat) (w : Accounts) : UserCmd → Accounts → Prop
  | same {c : UserCmd} : DbStep i w c w
  | drop {c : UserCmd} (aborted : Nat → Bool) :
      DbStep i w c { w with written := w.dropWrites i, aborted := aborted }
  | write {u : UUID} {version : Nat} {values : UserValues} {row : UserRow}
      (hrow : w.visible? i u = some row) :
      DbStep i w (.updateUser u version values)
        { w with written := w.dropWrites i ++ [(i, values.apply row)] }
  | commit {old new : UserRow} (aborted : Nat → Bool) (hown : w.own? i = some new)
      (hold : w.row? new.id = some old) :
      DbStep i w .commit
        { w with
          users := replace w.users new
          written := w.dropWrites i
          aborted := aborted
          log := w.log ++ [⟨i, old, new⟩] }

section Steps

variable {i : Nat} {c : UserCmd}

theorem sessionEffect_db {s s' : UserSession} {r : Except Exn c.Resp}
    (h : sessionEffect i s c = some (r, s')) : ∃ r', userEffect i s.db c = some (r', s'.db) := by
  cases c with
  | selectUser u =>
      obtain ⟨⟨r', w⟩, heffect, hanswer⟩ := Option.map_eq_some_iff.mp h
      refine ⟨r', heffect.trans ?_⟩
      rcases r' with exc | _ | user <;> cases hanswer <;> rfl
  | updateUser u version values =>
      obtain ⟨⟨r', w⟩, heffect, hanswer⟩ := Option.map_eq_some_iff.mp h
      refine ⟨r', heffect.trans ?_⟩
      rcases r' with exc | updated <;> cases hanswer <;> rfl
  | selectRole name =>
      obtain ⟨⟨r', w⟩, heffect, hanswer⟩ := Option.map_eq_some_iff.mp h
      cases hanswer
      exact ⟨r', heffect⟩
  | commit | rollback =>
      cases h
      exact ⟨_, rfl⟩

theorem dbStep_commit (i : Nat) (w : Accounts) : DbStep i w .commit (w.commitTx i) := by
  unfold commitTx
  split
  · rename_i new hown
    split
    · rename_i old hold
      exact .commit _ hown hold
    · exact .drop _
  · exact .drop _

theorem dbStep_effect {w w' : Accounts} {r : Except Exn c.Resp}
    (h : userEffect i w c = some (r, w')) : DbStep i w c w' := by
  cases c with
  | selectUser u =>
      cases userEffect_reads rfl h
      exact .same
  | selectRole name =>
      cases userEffect_reads rfl h
      exact .same
  | updateUser u version values =>
      rcases userEffect_update h with ⟨row, -, -, hrow, -, rfl⟩ | ⟨-, rfl⟩
      · exact .write hrow
      · exact .same
  | commit =>
      cases h
      exact dbStep_commit i w
  | rollback =>
      cases h
      exact .drop _

/-- A statement is answered in its session, or it raises and at most the transaction is
aborted. -/
theorem service_cases {fate : Fate} {w w' : Sessions} {r : Except Exn c.Resp}
    (h : sessionService.exec i fate w c = some (r, w')) :
    (∃ s', sessionEffect i (w.session i) c = some (r, s') ∧ w' = w.put i s' ∧
      (fate = .ok ∨ c = .rollback)) ∨
      ((∃ exc, r = .error exc) ∧ (w' = w ∨ w' = { w with db := w.db.abortTx i })) := by
  have hsession : (sessionEffect i (w.session i) c).map (fun answer =>
      (answer.1, w.put i answer.2)) = some (r, w') →
      ∃ s', sessionEffect i (w.session i) c = some (r, s') ∧ w' = w.put i s' := by
    intro hmap
    obtain ⟨⟨r', s'⟩, heffect, heq⟩ := Option.map_eq_some_iff.mp hmap
    cases heq
    exact ⟨s', heffect, rfl⟩
  cases fate with
  | ok =>
      obtain ⟨s', heffect, hput⟩ := hsession h
      exact .inl ⟨s', heffect, hput, .inl rfl⟩
  | lost =>
      cases c with
      | rollback =>
          obtain ⟨s', heffect, hput⟩ := hsession h
          exact .inl ⟨s', heffect, hput, .inr rfl⟩
      | _ => cases h; exact .inr ⟨⟨_, rfl⟩, .inl rfl⟩
  | rejected =>
      cases c with
      | rollback =>
          obtain ⟨s', heffect, hput⟩ := hsession h
          exact .inl ⟨s', heffect, hput, .inr rfl⟩
      | commit => cases h; exact .inr ⟨⟨_, rfl⟩, .inl rfl⟩
      | _ => cases h; exact .inr ⟨⟨_, rfl⟩, .inr rfl⟩

theorem service_exec {fate : Fate} {w w' : Sessions} {r : Except Exn c.Resp}
    (h : sessionService.exec i fate w c = some (r, w')) :
    DbStep i w.db c w'.db ∧ ∀ j, j ≠ i → w'.objects j = w.objects j := by
  rcases service_cases h with ⟨s', heffect, rfl, -⟩ | ⟨-, rfl | rfl⟩
  · obtain ⟨r', hdb⟩ := sessionEffect_db heffect
    exact ⟨dbStep_effect hdb, fun j hj => setAt_ne _ _ hj⟩
  · exact ⟨.same, fun _ _ => rfl⟩
  · exact ⟨.drop _, fun _ _ => rfl⟩

theorem service_env {arrival : Arrival} {w w' : Sessions}
    (h : sessionService.env arrival w = some w') :
    ∃ row, enrols w.db row = true ∧
      w' = { w with db := { w.db with users := w.db.users ++ [row] } } := by
  obtain ⟨row⟩ := arrival
  change (if enrols w.db row then _ else none) = some w' at h
  split at h
  · rename_i henrols
    exact ⟨row, henrols, (Option.some.inj h).symm⟩
  · cases h

end Steps

/-- No transaction is open, and no update has been logged. -/
structure Quiet (w : Accounts) : Prop where
  written : w.written = []
  log : w.log = []

/-- What the other sessions leave to session `i`. -/
structure Untouched (i : Nat) (w w' : Sessions) : Prop where
  objects : w'.objects i = w.objects i
  own : w'.db.own? i = w.db.own? i
  mine : (w'.db.log.filter fun e => e.session = i) = w.db.log.filter fun e => e.session = i
  grows : w.db.log.length ≤ w'.db.log.length

/-- Where the rows of the table come from: they were there, a registration has added them,
or a logged update has written them. -/
structure Traced (start w : Accounts) : Prop where
  roles : w.roles = start.roles
  rows : ∀ u row, w.row? u = some row → start.row? u = some row ∨
    ((start.load row).any fun user => user.role.name = "client_app") = true ∨
      ∃ e ∈ w.log, e.new = row
  kept : ∀ u row, start.row? u = some row → w.row? u = some row ∨ ∃ e ∈ w.log, e.new.id = u

section Rules

variable {i : Nat} {c : UserCmd}

theorem Untouched.refl (i : Nat) (w : Sessions) : Untouched i w w := ⟨rfl, rfl, rfl, le_rfl⟩

theorem Untouched.trans {a b c : Sessions} (hab : Untouched i a b) (hbc : Untouched i b c) :
    Untouched i a c :=
  ⟨hbc.objects.trans hab.objects, hbc.own.trans hab.own, hbc.mine.trans hab.mine,
    hab.grows.trans hbc.grows⟩

theorem DbStep.grows {w w' : Accounts} (h : DbStep i w c w') : w.log.length ≤ w'.log.length := by
  cases h with
  | same | drop | write => exact le_rfl
  | commit => simp

theorem DbStep.untouched {w w' : Sessions} (h : DbStep i w.db c w'.db) {j : Nat} (hj : j ≠ i)
    (hobjects : w'.objects j = w.objects j) : Untouched j w w' := by
  refine ⟨hobjects, ?_, ?_, h.grows⟩
  · generalize w'.db = db at h
    cases h with
    | same => rfl
    | drop | commit => exact congrArg _ (own?_dropWrites hj w.db)
    | write hrow =>
        simp only [own?, List.find?_append, own?_dropWrites hj]
        simp [Ne.symm hj]
  · generalize w'.db = db at h
    cases h with
    | same | drop | write => rfl
    | commit => simp [List.filter_append, Ne.symm hj]

theorem row?_replace_ne {users : List UserRow} {new : UserRow} {u : UUID} (hu : new.id ≠ u) :
    ((replace users new).find? fun row => row.id = u) = users.find? fun row => row.id = u := by
  induction users with
  | nil => rfl
  | cons head users ih =>
      have hhead : (if head.id = new.id then new else head).id = head.id := by
        split
        · rename_i hid
          exact hid.symm
        · rfl
      change List.find? _ ((if head.id = new.id then new else head) :: replace users new) = _
      by_cases hid : head.id = u
      · have hne : head.id ≠ new.id := fun heq => hu (heq.symm.trans hid)
        rw [if_neg hne, List.find?_cons_of_pos (by simpa using hid),
          List.find?_cons_of_pos (by simpa using hid)]
      · rw [List.find?_cons_of_neg (by simpa [hhead] using hid),
          List.find?_cons_of_neg (by simpa using hid), ih]

theorem Traced.refl (w : Accounts) : Traced w w :=
  ⟨rfl, fun _ _ hrow => .inl hrow, fun _ _ hrow => .inl hrow⟩

theorem Traced.step {start w w' : Accounts} (h : Traced start w) (hstep : DbStep i w c w') :
    Traced start w' := by
  cases hstep with
  | same => exact h
  | drop | write => exact ⟨h.roles, h.rows, h.kept⟩
  | @commit old new aborted hown hold =>
      have hlogged : ∃ e ∈ w.log ++ [⟨i, old, new⟩], e.new = new :=
        ⟨⟨i, old, new⟩, by simp, rfl⟩
      have hmore : ∀ {P : Update → Prop}, (∃ e ∈ w.log, P e) →
          ∃ e ∈ w.log ++ [⟨i, old, new⟩], P e := by
        rintro P ⟨e, he, hP⟩
        exact ⟨e, List.mem_append_left _ he, hP⟩
      refine ⟨h.roles, fun u row hrow => ?_, fun u row hrow => ?_⟩
      · by_cases hu : new.id = u
        · have hnew := find?_replace hu (hu ▸ hold)
          rw [Option.some.inj (hrow.symm.trans hnew)]
          exact .inr (.inr hlogged)
        · rcases h.rows u row ((row?_replace_ne hu).symm.trans hrow) with h | h | h
          · exact .inl h
          · exact .inr (.inl h)
          · exact .inr (.inr (hmore h))
      · by_cases hu : new.id = u
        · obtain ⟨e, he, hnew⟩ := hlogged
          exact .inr ⟨e, he, hnew ▸ hu⟩
        · rcases h.kept u row hrow with h | h
          · exact .inl ((row?_replace_ne hu).trans h)
          · exact .inr (hmore h)

theorem Traced.enrol {start w : Accounts} (h : Traced start w) {row : UserRow}
    (henrols : enrols w row = true) : Traced start { w with users := w.users ++ [row] } := by
  obtain ⟨hnone, hrole⟩ := Bool.and_eq_true_iff.mp henrols
  have hload : w.load row = start.load row := by
    unfold load
    rw [h.roles]
  have hlook : ∀ u, ({ w with users := w.users ++ [row] } : Accounts).row? u =
      (w.row? u).or (if row.id = u then some row else none) := by
    intro u
    simp only [row?, List.find?_append, List.find?_singleton]
    congr 1
    simp
  refine ⟨h.roles, fun u found hfound => ?_, fun u found hfound => ?_⟩
  · rw [hlook u] at hfound
    rcases Option.or_eq_some_iff.mp hfound with hold | ⟨-, hnew⟩
    · exact h.rows u found hold
    · split at hnew
      · cases hnew
        exact .inr (.inl (hload ▸ hrole))
      · cases hnew
  · rcases h.kept u found hfound with h | h
    · left
      rw [hlook u, h, Option.some_or]
    · exact .inr h

end Rules

def sessions (start : Accounts) : Discipline UserCmd.Resp Exn Sessions Fate Arrival where
  machine := sessionService
  policy := .any
  inv w := Traced start w.db
  rely := Untouched
  duty := fun _ _ _ => True
  rely_refl := Untouched.refl
  rely_trans := fun _ _ _ _ => Untouched.trans
  step_sound := by
    intro i fate w c r w' _ hinv _ hexec
    obtain ⟨hstep, hobjects⟩ := service_exec hexec
    exact ⟨hinv.step hstep, fun j hj => hstep.untouched hj (hobjects j hj)⟩
  crash_sound := by
    intro i w c _ hinv
    have hstep : DbStep i w.db c (w.db.rollbackTx i) := .drop _
    exact ⟨hinv.step hstep, fun j hj => hstep.untouched hj (setAt_ne _ _ hj)⟩
  env_sound := by
    intro arrival w w' _ hinv henv
    obtain ⟨row, henrols, rfl⟩ := service_env henv
    exact ⟨hinv.enrol henrols, fun j => ⟨rfl, rfl, rfl, le_rfl⟩⟩

section Registrations

variable {sec : Security} {str : Lowercase} {data : UserCreate} {s s' : Registry}
  {user : LoadedUser}

def accountsOf (s : Registry) : Accounts where
  users := s.users
  roles := s.roles
  written := []
  aborted := fun _ => false
  log := []

/-- A registration that returns has inserted a row of a new user under the role, with a hash
of the password. -/
theorem run_register (hs : Settled s) {roleName : String}
    (h : (register sec str data roleName).run authStep s = some (.ok user, s')) :
    ∃ role hashed, s.roles.find? (fun role => role.name = roleName) = some role ∧
      sec.hashPassword (s.salts s.salted) data.password = some hashed ∧
      user.row = newRow str data hashed s role ∧ (∀ row ∈ s.users, row.id ≠ user.row.id) ∧
      s' = holding s user.row := by
  by_cases htaken : ∃ row ∈ s.users, row.email = data.email
  · rw [register_taken hs htaken] at h
    cases h
  have hunused : Unused s data.email := fun row hrow hemail => htaken ⟨row, hrow, hemail⟩
  by_cases hseeded : isText roleName = true ∧ ∃ role ∈ s.roles, role.name = roleName
  case neg =>
    obtain ⟨exc, s'', hrun, -⟩ := register_unseeded sec str hs hunused hseeded
    cases hrun.symm.trans h
  obtain ⟨htext, hseeded⟩ := hseeded
  obtain ⟨role, hrole⟩ := exists_find?_iff.mpr hseeded
  cases hhash : sec.hashPassword (s.salts s.salted) data.password with
  | none =>
      rw [register_unhashed hs hunused htext hrole hhash] at h
      cases h
  | some hashed =>
      by_cases hadmits : (flushed s).admits (newRow str data hashed s role) = true
      case neg =>
        rw [register_refused hs hunused htext hrole hhash hadmits] at h
        cases h
      obtain ⟨role', hnew⟩ := register_new hs hunused htext hrole hhash hadmits
      obtain ⟨-, -, hdiffers⟩ := (admits_newRow_iff hs (List.mem_of_find?_eq_some hrole)).mp hadmits
      cases h.symm.trans hnew
      exact ⟨role, hashed, hrole, rfl, rfl, fun row hrow => (hdiffers row hrow).2, rfl⟩

theorem registration_adds (hs : Settled s) {roleName : String}
    (h : (registerRequest sec str data roleName).run authStep s = some (.ok user, s')) :
    ∃ role hashed, s.roles.find? (fun role => role.name = roleName) = some role ∧
      sec.hashPassword (s.salts s.salted) data.password = some hashed ∧
      user.row = newRow str data hashed s role ∧ (∀ row ∈ s.users, row.id ≠ user.row.id) ∧
      s' = added s user.row := by
  obtain ⟨s₁, s₂, hhandler, hcommit, hrollback⟩ := run_getDb_inv h
  cases hcommit
  cases hrollback
  obtain ⟨role, hashed, hrole, hhash, hrow, hnew, rfl⟩ := run_register hs hhandler
  exact ⟨role, hashed, hrole, hhash, hrow, hnew, commit_holding hs⟩

theorem registration_arrives (hs : Settled s) (hids : (s.roles.map Role.id).Nodup)
    (h : (registerRequest sec str data "client_app").run authStep s = some (.ok user, s')) :
    sessionService.env (.registered user.row) (.opened (accountsOf s)) =
      some (.opened (accountsOf s')) := by
  obtain ⟨role, hashed, hrole, -, hrow, hnew, rfl⟩ := registration_adds hs h
  have hload : (accountsOf s).load user.row = some ⟨user.row, role⟩ := by
    rw [hrow]
    change (s.roles.find? fun r => r.id = role.id).map _ = _
    rw [find?_of_nodup hids (List.mem_of_find?_eq_some hrole)]
    rfl
  have hname : role.name = "client_app" := by simpa using List.find?_some hrole
  have hnone : (accountsOf s).row? user.row.id = none := by
    rw [Accounts.row?, List.find?_eq_none]
    simpa [accountsOf] using hnew
  have henrols : enrols (accountsOf s) user.row = true := by
    rw [enrols, hnone, hload, Option.any_some, hname]
    rfl
  exact if_pos henrols

end Registrations

end EventAnalytics.Services
