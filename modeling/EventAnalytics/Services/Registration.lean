import EventAnalytics.Library.Atomic
import EventAnalytics.Library.Lookup
import EventAnalytics.Services.AuthService
import Mathlib.Tactic.ByContra

/-! Whether registration keeps emails unique up to case. It looks the email up as it was
sent and stores it in lower case, so an email that is taken in another spelling is found
by the unique constraint and not by the check before it. -/
namespace EventAnalytics.Services

open Library Db

/-- A call of `register`, and the time at which its transaction starts. -/
structure Signup where
  now : Nat
  data : UserCreate
  roleName : String
  deriving DecidableEq, Repr

/-- No text that reaches the hash or the server holds a NUL. -/
def Signup.withoutNul (call : Signup) : Bool :=
  isText call.roleName && isText call.data.password && call.data.fullName.all isText

def startedAt (s : Registry) (now : Nat) : Registry := { s with clock := now }

def Signup.run (sec : Security) (str : Lowercase) (call : Signup) (s : Registry) :
    Option (Except AuthExn LoadedUser × Registry) :=
  (registerRequest sec str call.data call.roleName).run authStep (startedAt s call.now)

def registerAll (sec : Security) (str : Lowercase) : Registry → List Signup → Registry
  | s, [] => s
  | s, call :: calls =>
    registerAll sec str ((call.run sec str s).elim s Prod.snd) calls

section Runs

variable {sec : Security} {str : Lowercase} {s : Registry} {data : UserCreate} {roleName : String}

/-- Between requests no transaction is open. -/
structure Settled (s : Registry) : Prop where
  inserted : s.inserted = []
  aborted : s.aborted = false

theorem Settled.visible (hs : Settled s) : s.visible = s.users := by
  rw [Registry.visible, hs.inserted, List.append_nil]

theorem Settled.rollbackTx (hs : Settled s) : s.rollbackTx = s := by
  have h := hs.inserted
  have h' := hs.aborted
  cases s
  cases h
  cases h'
  rfl

theorem run_request_error {α : Type} {handler : AuthApp α} {exc : AuthExn} {s' : Registry}
    (h : handler.run authStep s = some (.error exc, s')) :
    (getDb (authQuery .commit) (authQuery .rollback) handler).run authStep s =
      some (.error exc, s'.rollbackTx) := by
  unfold getDb withSession
  apply Prog.run_bind_error
  rw [Prog.run_tryExcept_error (Prog.run_bind_error h)]
  rfl

theorem run_request_ok {α : Type} {handler : AuthApp α} {a : α} {s' : Registry}
    (h : handler.run authStep s = some (.ok a, s')) :
    (getDb (authQuery .commit) (authQuery .rollback) handler).run authStep s =
      some (.ok a, s'.commitTx.rollbackTx) := by
  unfold getDb withSession
  have hbody : (handler >>= fun r => authQuery .commit >>= fun _ => pure r).run authStep s =
      some (.ok a, s'.commitTx) := by
    rw [Prog.run_bind_ok h]
    rfl
  rw [Prog.run_bind_ok (Prog.run_tryExcept_ok hbody)]
  rfl

theorem register_taken (hs : Settled s) (htaken : ∃ row ∈ s.users, row.email = data.email) :
    (register sec str data roleName).run authStep s =
      some (.error (.exn (conflictError "Email already registered" "email_taken")), s) := by
  obtain ⟨row, hrow⟩ : ∃ row, s.visible.find? (fun row => row.email = data.email) = some row := by
    rw [hs.visible, exists_find?_iff]
    exact htaken
  have hselect : authStep s (.selectByEmail data.email) = some (.ok (some row), s) := by
    simp [authStep, hs.aborted, data.email_text, hrow]
  unfold register
  rw [Prog.run_perform_ok hselect]
  rfl

/-- No user has the email as it was sent. -/
def Unused (s : Registry) (email : String) : Prop := ∀ row ∈ s.users, row.email ≠ email

theorem selectByEmail_unused (hs : Settled s) (hunused : Unused s data.email) :
    authStep s (.selectByEmail data.email) = some (.ok none, s) := by
  have hnone : s.visible.find? (fun row => row.email = data.email) = none := by
    rw [hs.visible, List.find?_eq_none]
    simpa [Unused] using hunused
  simp [authStep, hs.aborted, data.email_text, hnone]

theorem Settled.rollback_abort (hs : Settled s) : s.abort.rollbackTx = s := hs.rollbackTx

theorem register_unseeded (sec : Security) (str : Lowercase) (hs : Settled s) (hunused : Unused s data.email)
    (hrole : ¬ (isText roleName = true ∧ ∃ role ∈ s.roles, role.name = roleName)) :
    ∃ exc s', (register sec str data roleName).run authStep s = some (.error exc, s') ∧
      exc ≠ .exn (conflictError "Email already registered" "email_taken") ∧
      s'.rollbackTx = s := by
  unfold register
  rw [Prog.run_perform_ok (selectByEmail_unused hs hunused)]
  unfold getRole
  by_cases htext : isText roleName = true
  · have hnone : s.roles.find? (fun role => role.name = roleName) = none := by
      rw [List.find?_eq_none]
      exact fun role hmem hname => hrole ⟨htext, role, hmem, of_decide_eq_true hname⟩
    have hselect : authStep s (.selectRole roleName) = some (.ok none, s) := by
      simp [authStep, hs.aborted, htext, hnone]
    refine ⟨.runtimeError ("Role not seeded: " ++ roleName), s, ?_, nofun, hs.rollbackTx⟩
    apply Prog.run_bind_error
    rw [Prog.run_perform_ok hselect]
    rfl
  · have hselect : authStep s (.selectRole roleName) =
        some (.error (.exn .dbApiError), s.abort) := by
      simp [authStep, hs.aborted, htext]
    refine ⟨.exn .dbApiError, s.abort, ?_, by decide, hs.rollback_abort⟩
    apply Prog.run_bind_error
    exact Prog.run_perform_error hselect

def newUser (str : Lowercase) (data : UserCreate) (hashed : String) (s : Registry) (role : Role) :
    NewUser where
  id := s.uuids s.drawn
  email := str.lower data.email
  hashedPassword := hashed
  fullName := data.fullName
  roleId := role.id

def newRow (str : Lowercase) (data : UserCreate) (hashed : String) (s : Registry) (role : Role) :
    UserRow :=
  (newUser str data hashed s role).row s.clock

/-- Where the password is hashed. -/
def salted (s : Registry) : Registry := { s with salted := s.salted + 1 }

/-- Where the `INSERT` finds the tables. -/
def flushed (s : Registry) : Registry := { salted s with drawn := s.drawn + 1 }

def holding (s : Registry) (row : UserRow) : Registry :=
  { flushed s with inserted := [row] }

theorem run_getRole {role : Role} (hs : Settled s) (htext : isText roleName = true)
    (hrole : s.roles.find? (fun role => role.name = roleName) = some role) :
    (getRole roleName).run authStep s = some (.ok role, s) := by
  have hselect : authStep s (.selectRole roleName) = some (.ok (some role), s) := by
    simp [authStep, hs.aborted, htext, hrole]
  unfold getRole
  rw [Prog.run_perform_ok hselect]
  rfl

theorem register_unhashed {role : Role} (hs : Settled s) (hunused : Unused s data.email)
    (htext : isText roleName = true)
    (hrole : s.roles.find? (fun role => role.name = roleName) = some role)
    (hhash : sec.hashPassword (s.salts s.salted) data.password = none) :
    (register sec str data roleName).run authStep s =
      some (.error (.exn .valueError), salted s) := by
  have hsalt : authStep s .gensalt = some (.ok (s.salts s.salted), salted s) := rfl
  unfold register
  rw [Prog.run_perform_ok (selectByEmail_unused hs hunused)]
  dsimp only
  rw [Prog.run_bind_ok (run_getRole hs htext hrole), Prog.run_perform_ok hsalt, hhash]
  rfl

theorem register_inserts {role : Role} {hashed : String} (hs : Settled s)
    (hunused : Unused s data.email) (htext : isText roleName = true)
    (hrole : s.roles.find? (fun role => role.name = roleName) = some role)
    (hhash : sec.hashPassword (s.salts s.salted) data.password = some hashed) :
    (register sec str data roleName).run authStep s =
      (do
        let row ← authQuery (.insertUser (newUser str data hashed s role))
        let user ← loadRole row
        match ← authQuery (.selectUser user.row.id) with
        | some row => loadRole row
        | none => .raise (.exn .noResultFound) : AuthApp LoadedUser).run authStep (flushed s) := by
  have hsalt : authStep s .gensalt = some (.ok (s.salts s.salted), salted s) := rfl
  have hid : authStep (salted s) .uuid4 = some (.ok (s.uuids s.drawn), flushed s) := rfl
  unfold register
  rw [Prog.run_perform_ok (selectByEmail_unused hs hunused)]
  dsimp only
  rw [Prog.run_bind_ok (run_getRole hs htext hrole), Prog.run_perform_ok hsalt, hhash]
  dsimp only
  rw [Prog.run_perform_ok hid]
  rfl

theorem admits_newRow_iff {role : Role} {hashed : String} (hs : Settled s)
    (hrole : role ∈ s.roles) :
    (flushed s).admits (newRow str data hashed s role) = true ↔
      isText hashed = true ∧ data.fullName.all isText = true ∧
        ∀ row ∈ s.users, row.email ≠ str.lower data.email ∧ row.id ≠ s.uuids s.drawn := by
  have hvisible : (flushed s).visible = s.users := hs.visible
  have hemail : isText (newRow str data hashed s role).email = true :=
    str.lower_text _ data.email_text
  have hseeded : (flushed s).roles.any
      (fun r => r.id = (newRow str data hashed s role).roleId) = true :=
    List.any_eq_true.mpr ⟨role, hrole, decide_eq_true rfl⟩
  rw [Registry.admits, hvisible, hemail, hseeded, Bool.and_true, Bool.true_and]
  simp only [Bool.and_eq_true, List.all_eq_true, decide_eq_true_eq, and_assoc]
  rfl

theorem register_refused {role : Role} {hashed : String} (hs : Settled s)
    (hunused : Unused s data.email) (htext : isText roleName = true)
    (hrole : s.roles.find? (fun role => role.name = roleName) = some role)
    (hhash : sec.hashPassword (s.salts s.salted) data.password = some hashed)
    (hrefused : ¬ (flushed s).admits (newRow str data hashed s role) = true) :
    (register sec str data roleName).run authStep s =
      some (.error (.exn .dbApiError), (flushed s).abort) := by
  have haborted : ¬ (flushed s).aborted = true := Bool.not_eq_true _ ▸ hs.aborted
  have hinsert : authStep (flushed s) (.insertUser (newUser str data hashed s role)) =
      some (.error (.exn .dbApiError), (flushed s).abort) := by
    simp only [authStep]
    rw [if_neg haborted]
    exact if_neg hrefused
  rw [register_inserts hs hunused htext hrole hhash]
  exact Prog.run_perform_error hinsert

theorem insertUser_admitted {role : Role} {hashed : String} (hs : Settled s)
    (hadmitted : (flushed s).admits (newRow str data hashed s role) = true) :
    authStep (flushed s) (.insertUser (newUser str data hashed s role)) =
      some (.ok (newRow str data hashed s role), holding s (newRow str data hashed s role)) := by
  have haborted : (flushed s).aborted = false := hs.aborted
  have hinserted : (flushed s).inserted = [] := hs.inserted
  change (if (flushed s).aborted = true then _ else if _ then _ else _) = _
  rw [if_neg (by simp [haborted]), hinserted]
  exact if_pos hadmitted

theorem run_loadRole {row : UserRow} {role : Role} (haborted : s.aborted = false)
    (hfound : s.roles.find? (fun r => r.id = row.roleId) = some role) :
    (loadRole row).run authStep s = some (.ok ⟨row, role⟩, s) := by
  have hselect : authStep s (.selectRoleById row.roleId) = some (.ok (some role), s) := by
    simp [authStep, haborted, hfound]
  unfold loadRole
  rw [Prog.run_perform_ok hselect]
  rfl

theorem register_new {role : Role} {hashed : String} (hs : Settled s)
    (hunused : Unused s data.email) (htext : isText roleName = true)
    (hrole : s.roles.find? (fun role => role.name = roleName) = some role)
    (hhash : sec.hashPassword (s.salts s.salted) data.password = some hashed)
    (hadmitted : (flushed s).admits (newRow str data hashed s role) = true) :
    ∃ role', (register sec str data roleName).run authStep s =
      some (.ok ⟨newRow str data hashed s role, role'⟩,
        holding s (newRow str data hashed s role)) := by
  have hseeded : role ∈ s.roles := List.mem_of_find?_eq_some hrole
  obtain ⟨-, -, hnew⟩ := (admits_newRow_iff hs hseeded).mp hadmitted
  obtain ⟨role', hfound⟩ : ∃ role', s.roles.find? (fun r => r.id = role.id) = some role' :=
    exists_find?_iff.mpr ⟨role, hseeded, rfl⟩
  have haborted : (holding s (newRow str data hashed s role)).aborted = false := hs.aborted
  have hload : (loadRole (newRow str data hashed s role)).run authStep
      (holding s (newRow str data hashed s role)) =
        some (.ok ⟨newRow str data hashed s role, role'⟩,
          holding s (newRow str data hashed s role)) := run_loadRole haborted hfound
  have hrow : authStep (holding s (newRow str data hashed s role))
      (.selectUser (newRow str data hashed s role).id) =
        some (.ok (some (newRow str data hashed s role)),
          holding s (newRow str data hashed s role)) := by
    have hfind : (s.users ++ [newRow str data hashed s role]).find?
        (fun row => row.id = s.uuids s.drawn) = some (newRow str data hashed s role) :=
      find?_append_new (fun row hrow => (hnew row hrow).2) rfl
    simp only [authStep, haborted, Bool.false_eq_true, if_false]
    rw [Registry.visible, ← hfind]
    rfl
  refine ⟨role', ?_⟩
  rw [register_inserts hs hunused htext hrole hhash,
    Prog.run_perform_ok (insertUser_admitted hs hadmitted), Prog.run_bind_ok hload,
    Prog.run_perform_ok hrow]
  exact hload

theorem login_ok {row : UserRow} {role : Role} {email password : String} (hs : Settled s)
    (htext : isText (str.lower email) = true)
    (hemail : s.users.find? (fun row => row.email = str.lower email) = some row)
    (hrole : s.roles.find? (fun r => r.id = row.roleId) = some role)
    (hverify : sec.verifyPassword password row.hashedPassword = some true)
    (hactive : row.isActive = true) :
    (loginRequest sec str email password).run authStep s =
      some (.ok (⟨row, role⟩, sec.createAccessToken row.id role.name), s) := by
  have hselect : authStep s (.selectByEmail (str.lower email)) = some (.ok (some row), s) := by
    rw [← hs.visible] at hemail
    simp [authStep, hs.aborted, htext, hemail]
  have hbody : (authenticate sec str email password).run authStep s =
      some (.ok (⟨row, role⟩, sec.createAccessToken row.id role.name), s) := by
    unfold authenticate
    rw [Prog.run_perform_ok hselect]
    dsimp only
    rw [Prog.run_bind_ok (run_loadRole hs.aborted hrole)]
    simp only [hverify, hactive, Bool.not_true, Bool.false_eq_true, if_false]
    rfl
  have hcommit : s.commitTx.rollbackTx = s := by
    rw [Registry.commitTx, hs.aborted, hs.visible]
    exact hs.rollbackTx
  rw [loginRequest, run_request_ok hbody, hcommit]

end Runs

section Calls

variable {sec : Security} {str : Lowercase} {left : Nat} {s : Registry} {call : Signup}

/-- What every sequence of calls keeps. The next `left` draws of `uuid4` are new. -/
structure Tidy (str : Lowercase) (left : Nat) (s : Registry) : Prop extends Settled s where
  lowered : ∀ row ∈ s.users, str.lower row.email = row.email
  distinct : (s.users.map UserRow.email).Nodup
  fresh : ∀ row ∈ s.users, ∀ k < left, row.id ≠ s.uuids (s.drawn + k)
  draws : ∀ j k, j < k → k < left → s.uuids (s.drawn + j) ≠ s.uuids (s.drawn + k)

def added (s : Registry) (row : UserRow) : Registry :=
  { flushed s with users := s.users ++ [row] }

theorem Tidy.started (h : Tidy str left s) (now : Nat) : Tidy str left (startedAt s now) :=
  ⟨⟨h.inserted, h.aborted⟩, h.lowered, h.distinct, h.fresh, h.draws⟩

theorem Tidy.less (h : Tidy str (left + 1) s) : Tidy str left s :=
  ⟨h.toSettled, h.lowered, h.distinct,
    fun row hrow k hk => h.fresh row hrow k (Nat.lt_succ_of_lt hk),
    fun j k hjk hk => h.draws j k hjk (Nat.lt_succ_of_lt hk)⟩

theorem drawn_flushed (s : Registry) (k : Nat) :
    (flushed s).uuids ((flushed s).drawn + k) = s.uuids (s.drawn + (k + 1)) := by
  change s.uuids (s.drawn + 1 + k) = _
  rw [Nat.add_assoc, Nat.add_comm 1 k]

theorem Tidy.salted (h : Tidy str left s) : Tidy str left (salted s) :=
  ⟨⟨h.inserted, h.aborted⟩, h.lowered, h.distinct, h.fresh, h.draws⟩

theorem Tidy.flushed (h : Tidy str (left + 1) s) : Tidy str left (flushed s) where
  inserted := h.inserted
  aborted := h.aborted
  lowered := h.lowered
  distinct := h.distinct
  fresh := by
    intro row hrow k hk
    rw [drawn_flushed]
    exact h.fresh row hrow (k + 1) (Nat.succ_lt_succ hk)
  draws := by
    intro j k hjk hk
    rw [drawn_flushed, drawn_flushed]
    exact h.draws (j + 1) (k + 1) (Nat.succ_lt_succ hjk) (Nat.succ_lt_succ hk)

theorem Tidy.added (h : Tidy str (left + 1) s) {data : UserCreate} (hashed : String) (role : Role)
    (hunused : Unused s (str.lower data.email)) :
    Tidy str left (added s (newRow str data hashed s role)) where
  inserted := h.inserted
  aborted := h.aborted
  lowered := by
    intro row hrow
    rcases List.mem_append.mp hrow with hrow | hrow
    · exact h.lowered row hrow
    · rw [List.mem_singleton.mp hrow]
      exact str.lower_lower data.email
  distinct := by
    change ((s.users ++ [newRow str data hashed s role]).map UserRow.email).Nodup
    rw [List.map_append, List.nodup_append]
    refine ⟨h.distinct, by simp, fun email hemail email' hemail' => ?_⟩
    obtain ⟨row, hrow, rfl⟩ := List.mem_map.mp hemail
    rw [List.mem_singleton.mp hemail']
    exact hunused row hrow
  fresh := by
    intro row hrow k hk
    change row.id ≠ (Services.flushed s).uuids ((Services.flushed s).drawn + k)
    rcases List.mem_append.mp hrow with hrow | hrow
    · exact h.flushed.fresh row hrow k hk
    · rw [List.mem_singleton.mp hrow, drawn_flushed]
      exact h.draws 0 (k + 1) (Nat.succ_pos k) (Nat.succ_lt_succ hk)
  draws := h.flushed.draws

theorem commit_holding {row : UserRow} (hs : Settled s) :
    (holding s row).commitTx.rollbackTx = added s row := by
  have h := hs.inserted
  have h' := hs.aborted
  cases s
  cases h
  cases h'
  rfl

theorem signup_taken (h : Tidy str left s) (htaken : ∃ row ∈ s.users, row.email = call.data.email) :
    call.run sec str s =
      some (.error (.exn (conflictError "Email already registered" "email_taken")),
        startedAt s call.now) := by
  have hs := (h.started call.now).toSettled
  rw [Signup.run, registerRequest, run_request_error (register_taken hs htaken), hs.rollbackTx]

/-- A call that the email does not stop, and that cannot add its user, raises something
else than that the email is taken. -/
theorem signup_refused (h : Tidy str (left + 1) s) (sec : Security)
    (hunused : Unused s call.data.email)
    (hnot : ¬ ((∃ role ∈ s.roles, role.name = call.roleName) ∧ call.withoutNul = true ∧
      Unused s (str.lower call.data.email))) :
    ∃ exc s', call.run sec str s = some (.error exc, s') ∧
      exc ≠ .exn (conflictError "Email already registered" "email_taken") ∧
      Tidy str left s' ∧ s'.roles = s.roles := by
  have hstart := h.started call.now
  have hs := hstart.toSettled
  by_cases hrole : isText call.roleName = true ∧ ∃ role ∈ s.roles, role.name = call.roleName
  case neg =>
    obtain ⟨exc, s', hrun, hexc, hback⟩ := register_unseeded sec str hs hunused hrole
    refine ⟨exc, startedAt s call.now, ?_, hexc, hstart.less, rfl⟩
    rw [Signup.run, registerRequest, run_request_error hrun, hback]
  obtain ⟨htext, hseeded⟩ := hrole
  obtain ⟨role, hfind⟩ := exists_find?_iff.mpr hseeded
  cases hhash : sec.hashPassword (s.salts s.salted) call.data.password with
  | none =>
      refine ⟨.exn .valueError, salted (startedAt s call.now), ?_, by decide,
        hstart.salted.less, rfl⟩
      rw [Signup.run, registerRequest,
        run_request_error (register_unhashed hs hunused htext hfind hhash)]
      exact congrArg (fun s' => some (_, s')) hstart.salted.toSettled.rollbackTx
  | some hashed =>
      have hpassword := (sec.hash_isSome (s.salts s.salted) _ call.data.password_le).mp
        (hhash ▸ rfl)
      have hrefused : ¬ (flushed (startedAt s call.now)).admits
          (newRow str call.data hashed (startedAt s call.now) role) = true := by
        rw [admits_newRow_iff hs (List.mem_of_find?_eq_some hfind)]
        rintro ⟨-, hname, hnew⟩
        apply hnot
        refine ⟨hseeded, ?_, fun row hrow => (hnew row hrow).1⟩
        rw [Signup.withoutNul, htext, hpassword, hname]
        rfl
      refine ⟨.exn .dbApiError, flushed (startedAt s call.now), ?_, by decide, hstart.flushed, rfl⟩
      rw [Signup.run, registerRequest,
        run_request_error (register_refused hs hunused htext hfind hhash hrefused)]
      exact congrArg (fun s' => some (_, s')) hstart.flushed.toSettled.rollback_abort

theorem signup_new (sec : Security) (call : Signup) {role : Role} (h : Tidy str (left + 1) s)
    (hunused : Unused s call.data.email) (htexts : call.withoutNul = true)
    (hrole : s.roles.find? (fun role => role.name = call.roleName) = some role)
    (hlower : Unused s (str.lower call.data.email)) :
    ∃ hashed role', sec.hashPassword (s.salts s.salted) call.data.password = some hashed ∧
      call.run sec str s =
        some (.ok ⟨newRow str call.data hashed (startedAt s call.now) role, role'⟩,
          added (startedAt s call.now)
            (newRow str call.data hashed (startedAt s call.now) role)) := by
  have hs := (h.started call.now).toSettled
  simp only [Signup.withoutNul, Bool.and_eq_true] at htexts
  obtain ⟨⟨htext, hpassword⟩, hname⟩ := htexts
  obtain ⟨hashed, hhash⟩ := Option.isSome_iff_exists.mp
    ((sec.hash_isSome (s.salts s.salted) _ call.data.password_le).mpr hpassword)
  have hadmitted : (flushed (startedAt s call.now)).admits
      (newRow str call.data hashed (startedAt s call.now) role) = true := by
    rw [admits_newRow_iff hs (List.mem_of_find?_eq_some hrole)]
    exact ⟨sec.hash_text _ _ _ hhash, hname, fun row hrow =>
      ⟨hlower row hrow, h.fresh row hrow 0 (Nat.succ_pos left)⟩⟩
  obtain ⟨role', hrun⟩ := register_new hs hunused htext hrole hhash hadmitted
  refine ⟨hashed, role', hhash, ?_⟩
  rw [Signup.run, registerRequest, run_request_ok hrun, commit_holding hs]

theorem Tidy.run (h : Tidy str (left + 1) s) (sec : Security) (call : Signup) :
    Tidy str left ((call.run sec str s).elim s Prod.snd) ∧
      ((call.run sec str s).elim s Prod.snd).roles = s.roles := by
  have hstart := h.started call.now
  by_cases htaken : ∃ row ∈ s.users, row.email = call.data.email
  · rw [signup_taken h htaken]
    exact ⟨hstart.less, rfl⟩
  have hunused : Unused s call.data.email := fun row hrow heq => htaken ⟨row, hrow, heq⟩
  by_cases hadds : (∃ role ∈ s.roles, role.name = call.roleName) ∧ call.withoutNul = true ∧
      Unused s (str.lower call.data.email)
  · obtain ⟨hseeded, htexts, hlower⟩ := hadds
    obtain ⟨role, hrole⟩ := exists_find?_iff.mpr hseeded
    obtain ⟨hashed, role', -, hrun⟩ := signup_new sec call h hunused htexts hrole hlower
    rw [hrun]
    exact ⟨hstart.added hashed role hlower, rfl⟩
  · obtain ⟨exc, s', hrun, -, htidy, hroles⟩ := signup_refused h sec hunused hadds
    rw [hrun]
    exact ⟨htidy, hroles⟩

theorem Tidy.registerAll {calls : List Signup} (h : Tidy str (left + calls.length) s)
    (sec : Security) : Tidy str left (registerAll sec str s calls) ∧
      (registerAll sec str s calls).roles = s.roles := by
  induction calls generalizing s with
  | nil => exact ⟨h, rfl⟩
  | cons call calls ih =>
      obtain ⟨htidy, hroles⟩ := h.run sec call
      obtain ⟨hall, hsame⟩ := ih htidy
      exact ⟨hall, hsame.trans hroles⟩

theorem Tidy.start (str : Lowercase) (roles : List Role) {uuids : Nat → UUID}
    (hdraws : ∀ j k, j < k → k < left → uuids j ≠ uuids k) (salts : Nat → Nat) :
    Tidy str left (.start roles uuids salts) where
  inserted := rfl
  aborted := rfl
  lowered := by simp [Registry.start]
  distinct := by simp [Registry.start]
  fresh := by simp [Registry.start]
  draws := by simpa [Registry.start] using hdraws

/-- What registration promises for a call: a clean conflict when the email is taken in
some spelling, and otherwise one more user, whom every spelling finds. -/
structure RegistersCleanly (sec : Security) (str : Lowercase) (call : Signup) (s : Registry) :
    Prop where
  conflict : (∃ row ∈ s.users, row.email = str.lower call.data.email) →
    ∃ s', call.run sec str s =
        some (.error (.exn (conflictError "Email already registered" "email_taken")), s') ∧
      s'.users = s.users
  success : (∀ row ∈ s.users, row.email ≠ str.lower call.data.email) →
    ∃ user s', call.run sec str s = some (.ok user, s') ∧ s'.users = s.users ++ [user.row] ∧
      (∀ row ∈ s'.users, str.lower row.email = row.email) ∧
      (s'.users.map UserRow.email).Nodup ∧
      ∀ spelling, str.lower spelling = str.lower call.data.email →
        ∃ found token s'', (loginRequest sec str spelling call.data.password).run authStep s' =
          some (.ok (found, token), s'') ∧ found.row = user.row

theorem Tidy.success (h : Tidy str (left + 1) s) {role : Role} (hunused : Unused s call.data.email)
    (htexts : call.withoutNul = true)
    (hrole : s.roles.find? (fun role => role.name = call.roleName) = some role)
    (hlower : Unused s (str.lower call.data.email)) :
    ∃ user s', call.run sec str s = some (.ok user, s') ∧ s'.users = s.users ++ [user.row] ∧
      (∀ row ∈ s'.users, str.lower row.email = row.email) ∧
      (s'.users.map UserRow.email).Nodup ∧
      ∀ spelling, str.lower spelling = str.lower call.data.email →
        ∃ found token s'', (loginRequest sec str spelling call.data.password).run authStep s' =
          some (.ok (found, token), s'') ∧ found.row = user.row := by
  obtain ⟨hashed, role', hhash, hrun⟩ := signup_new sec call h hunused htexts hrole hlower
  have htidy := (h.started call.now).added hashed role hlower
  refine ⟨_, _, hrun, rfl, htidy.lowered, htidy.distinct, fun spelling hspelling => ?_⟩
  have htext : isText (str.lower spelling) = true := by
    rw [hspelling]
    exact str.lower_text _ call.data.email_text
  have hfound : (s.users ++ [newRow str call.data hashed (startedAt s call.now) role]).find?
      (fun row => row.email = str.lower spelling) =
      some (newRow str call.data hashed (startedAt s call.now) role) := by
    rw [hspelling]
    exact find?_append_new hlower rfl
  obtain ⟨role'', hrole''⟩ : ∃ role'', s.roles.find? (fun r => r.id = role.id) = some role'' :=
    exists_find?_iff.mpr ⟨role, List.mem_of_find?_eq_some hrole, rfl⟩
  exact ⟨_, _, _, login_ok htidy.toSettled htext hfound hrole'' (sec.verify_hash _ _ _ hhash) rfl,
    rfl⟩

theorem Tidy.unused (h : Tidy str left s) {email : String}
    (hfree : str.lower email = email → Unused s email) : Unused s email := by
  intro row hrow heq
  have hlower := h.lowered row hrow
  rw [heq] at hlower
  exact hfree hlower row hrow heq

theorem Tidy.registersCleanly_iff (h : Tidy str (left + 1) s) (sec : Security) (call : Signup) :
    RegistersCleanly sec str call s ↔
      ((∃ row ∈ s.users, row.email = str.lower call.data.email) →
        call.data.email = str.lower call.data.email) ∧
      ((∀ row ∈ s.users, row.email ≠ str.lower call.data.email) →
        (∃ role ∈ s.roles, role.name = call.roleName) ∧ call.withoutNul = true) := by
  constructor
  · intro hclean
    refine ⟨fun htaken => ?_, fun hlower => ?_⟩
    · -- in another spelling the call gets past the check, and fails behind it
      by_contra hcase
      obtain ⟨s', hrun, -⟩ := hclean.conflict htaken
      have hunused := h.unused fun hlow => absurd hlow.symm hcase
      obtain ⟨exc, s'', hrefused, hexc, -⟩ := signup_refused h sec hunused fun hadds =>
        have ⟨row, hrow, hemail⟩ := htaken
        hadds.2.2 row hrow hemail
      cases hrun.symm.trans hrefused
      exact hexc rfl
    · by_contra hadds
      obtain ⟨user, s', hrun, -⟩ := hclean.success hlower
      have hunused := h.unused fun hlow => hlow ▸ hlower
      obtain ⟨exc, s'', hrefused, -⟩ := signup_refused h sec hunused fun hall =>
        hadds ⟨hall.1, hall.2.1⟩
      cases hrun.symm.trans hrefused
  · rintro ⟨hcase, hadds⟩
    refine ⟨fun htaken => ?_, fun hlower => ?_⟩
    · exact ⟨_, signup_taken h (hcase htaken ▸ htaken), rfl⟩
    · obtain ⟨hseeded, htexts⟩ := hadds hlower
      obtain ⟨role, hrole⟩ := exists_find?_iff.mpr hseeded
      exact h.success (h.unused fun hlow => hlow ▸ hlower) htexts hrole hlower

end Calls

/-- Registration is clean exactly when the email is sent in lower case or is not taken in
lower case, and for a new user the role is seeded and no text holds a NUL. Draws of
`uuid4` do not repeat. -/
theorem registers_cleanly_iff (sec : Security) (str : Lowercase) (roles : List Role)
    {uuids : Nat → UUID} (salts : Nat → Nat) (calls : List Signup) (call : Signup)
    (hdraws : ∀ j k, j < k → k ≤ calls.length → uuids j ≠ uuids k) :
    let s := registerAll sec str (.start roles uuids salts) calls
    RegistersCleanly sec str call s ↔
      ((∃ row ∈ s.users, row.email = str.lower call.data.email) →
        call.data.email = str.lower call.data.email) ∧
      ((∀ row ∈ s.users, row.email ≠ str.lower call.data.email) →
        (∃ role ∈ roles, role.name = call.roleName) ∧ call.withoutNul = true) := by
  have hstart : Tidy str (1 + calls.length) (.start roles uuids salts) :=
    .start str roles (fun j k hjk hk => hdraws j k hjk (by omega)) salts
  obtain ⟨htidy, hroles⟩ := hstart.registerAll sec
  have hiff := htidy.registersCleanly_iff sec call
  rw [hroles] at hiff
  exact hiff

def plainHash : Security where
  hashPassword _ password := if isText password then some ("hash-of-" ++ password) else none
  verifyPassword password hashed :=
    if isText password then some (hashed = "hash-of-" ++ password) else none
  createAccessToken _ _ := "token"
  hash_isSome := fun _ password _ => by by_cases h : isText password = true <;> simp [h]
  hash_text := by
    intro _ password hashed h
    obtain ⟨htext, h⟩ := Option.ite_none_right_eq_some.mp h
    cases h
    rw [isText_append, htext]
    decide +kernel
  verify_hash := by
    intro _ password hashed h
    obtain ⟨htext, h⟩ := Option.ite_none_right_eq_some.mp h
    cases h
    simp [htext]

def clientRole : Role := ⟨3, "client_app"⟩

def signup (email : String) (htext : isText email = true := by decide +kernel) : Signup :=
  ⟨0, { email := email, password := "correct horse", email_text := htext }, "client_app"⟩

/-- `str.lower` where no capital sigma asks for the ends of words. -/
def plainLower : Lowercase := strLower ⟨Char.isAlpha, fun c => c = '.'⟩

def afterAnn : Registry :=
  registerAll plainHash plainLower (.start [clientRole] (BitVec.ofNat 128) id)
    [signup "ann@example.org"]

def raised {α : Type} (r : Option (Except AuthExn α × Registry)) : Option AuthExn :=
  r.bind fun rs =>
    match rs.1 with
    | .ok _ => none
    | .error exc => some exc

/-- The email of a user is registered again, with capital letters: the constraint answers
and not the service. -/
theorem conflict_in_capitals :
    ¬ ∀ call : Signup, (∃ role ∈ afterAnn.roles, role.name = call.roleName) →
      RegistersCleanly plainHash plainLower call afterAnn := by
  intro h
  let call := signup "ANN@example.org"
  have htaken : ∃ row ∈ afterAnn.users, row.email = plainLower.lower call.data.email := by
    decide +kernel
  have hraised : raised (call.run plainHash plainLower afterAnn) = some (.exn .dbApiError) := by
    decide +kernel
  have hclean := h call (by decide +kernel)
  obtain ⟨s', hrun, -⟩ := hclean.conflict htaken
  rw [hrun] at hraised
  cases hraised

theorem registers_cleanly_iff_bob :
    RegistersCleanly plainHash plainLower (signup "Bob@example.org") afterAnn := by
  have hdraws : ∀ j k, j < k → k ≤ [signup "ann@example.org"].length →
      BitVec.ofNat 128 j ≠ BitVec.ofNat 128 k := by
    intro j k hjk hk
    have hk' : k = 1 := by
      simp only [List.length_singleton] at hk
      omega
    have hj : j = 0 := by omega
    rw [hk', hj]
    decide
  let call := signup "Bob@example.org"
  have hfree : ∀ row ∈ afterAnn.users, row.email ≠ plainLower.lower call.data.email := by
    decide +kernel
  have hiff := registers_cleanly_iff plainHash plainLower [clientRole] id
    [signup "ann@example.org"] call hdraws
  refine hiff.mpr ⟨fun htaken => ?_, fun _ =>
    ⟨⟨clientRole, List.mem_cons_self, rfl⟩, by decide +kernel⟩⟩
  obtain ⟨row, hrow, hemail⟩ := htaken
  exact absurd hemail (hfree row hrow)

end EventAnalytics.Services
