import EventAnalytics.Api.Admin
import EventAnalytics.Core.Security
import EventAnalytics.Library.Footprint
import EventAnalytics.Services.Sessions
import EventAnalytics.Workers.Tasks

/-! `app/deps.py` and `app/api/v1/auth.py`: from the token of a login to the user that a
later request finds behind it. -/
namespace EventAnalytics.Api

open Library Db Services EventAnalytics.Core

/-- What `get_current_user` makes of the `Authorization` header, a scheme and a text, before
it asks the database. -/
def credentialsOf (py : Python) (jwt : Jwt) (settings : JwtSettings) (now : Nat) :
    Option (String × String) → Except Exn Credentials
  | none => .ok .missing
  | some (scheme, token) =>
    if scheme.toLower ≠ "bearer" then .ok .missing
    else
      match decodeAccessToken jwt settings now token with
      | .error _ => .ok .invalid
      | .ok payload =>
        match payload.lookup "sub" with
        | none => .ok .invalid
        | some sub =>
          match Workers.uuidOfJson py sub with
          | .ok userId => .ok (.subject userId)
          | .error .valueError => .ok .invalid
          | .error exc => .error exc

/-- `GET /auth/me`. -/
def me (py : Python) (jwt : Jwt) (settings : JwtSettings) (now : Nat)
    (authorization : Option (String × String)) : UserApp UserRead :=
  Db.getDb (execute .commit) (execute .rollback) do
    let credentials ← Prog.ofExcept (credentialsOf py jwt settings now authorization)
    let user ← getCurrentUser credentials
    pure (toUserRead user)

/-- `AuthService` with the tokens of `create_access_token`, made at `now`. -/
def securityAt (sec : Security) (py : Python) (jwt : Jwt) (settings : JwtSettings)
    (now issuedAt : Nat) : Security :=
  { sec with
    createAccessToken := fun userId role =>
      createAccessToken jwt settings now issuedAt (py.uuidStr userId) role none [] }

def currentUser (w : Accounts) : Credentials → Except Exn LoadedUser
  | .missing => .error (unauthorizedError "Authentication required")
  | .invalid => .error (unauthorizedError "Invalid or expired token")
  | .subject userId =>
    match (w.row? userId).bind w.load with
    | some user =>
      if user.row.isActive then .ok user
      else .error (unauthorizedError "User inactive or not found")
    | none => .error (unauthorizedError "User inactive or not found")

section Session

variable {α : Type} {handler : UserApp α} {i : Nat} {s s' : UserSession}

theorem run_session_error {exc : Exn}
    (h : handler.run (sessionEffect i) s = some (.error exc, s')) :
    (Db.getDb (execute .commit) (execute .rollback) handler).run (sessionEffect i) s =
      some (.error exc, ⟨s'.db.rollbackTx i, .empty⟩) := by
  unfold Db.getDb withSession
  apply Prog.run_bind_error
  rw [Prog.run_tryExcept_error (Prog.run_bind_error h)]
  rfl

theorem run_session_ok {a : α} (h : handler.run (sessionEffect i) s = some (.ok a, s')) :
    (Db.getDb (execute .commit) (execute .rollback) handler).run (sessionEffect i) s =
      some (.ok a, ⟨(s'.db.commitTx i).rollbackTx i, .empty⟩) := by
  unfold Db.getDb withSession
  have hbody : (handler >>= fun r => execute .commit >>= fun _ => pure r).run
      (sessionEffect i) s = some (.ok a, ⟨s'.db.commitTx i, s'.objects⟩) := by
    rw [Prog.run_bind_ok h]
    rfl
  rw [Prog.run_bind_ok (Prog.run_tryExcept_ok hbody)]
  rfl

end Session

section Me

variable {py : Python} {jwt : Jwt} {settings : JwtSettings} {i : Nat} {w : Accounts}

theorem run_getCurrentUser_new (hown : w.own? i = none) (haborted : w.aborted i = false)
    (credentials : Credentials) :
    ∃ objects, (getCurrentUser credentials).run (sessionEffect i) ⟨w, .empty⟩ =
      some (currentUser w credentials, ⟨w, objects⟩) := by
  cases credentials with
  | missing => exact ⟨_, rfl⟩
  | invalid => exact ⟨_, rfl⟩
  | subject userId =>
      have hvisible : w.visible? i userId = w.row? userId := by
        rw [Accounts.visible?, hown]
      have heffect : userEffect i w (.selectUser userId) =
          some (.ok ((w.row? userId).bind w.load), w) := by
        rw [userEffect, haborted, hvisible]
        rfl
      unfold getCurrentUser
      simp only [currentUser]
      cases hfound : (w.row? userId).bind w.load with
      | none =>
          rw [hfound] at heffect
          have hselect : sessionEffect i ⟨w, .empty⟩ (.selectUser userId) =
              some (.ok none, ⟨w, .empty⟩) := by
            rw [sessionEffect, heffect]
            rfl
          exact ⟨.empty, by rw [Prog.run_perform_ok hselect]; rfl⟩
      | some user =>
          rw [hfound] at heffect
          have hselect : sessionEffect i ⟨w, .empty⟩ (.selectUser userId) =
              some (.ok (some user), ⟨w, IdentityMap.empty.merge user⟩) := by
            rw [sessionEffect, heffect]
            rfl
          refine ⟨IdentityMap.empty.merge user, ?_⟩
          rw [Prog.run_perform_ok hselect]
          dsimp only
          split <;> rfl

theorem run_me (hown : w.own? i = none) (haborted : w.aborted i = false) {now : Nat}
    {authorization : Option (String × String)} {credentials : Credentials}
    (hcredentials : credentialsOf py jwt settings now authorization = .ok credentials) :
    ∃ s', (me py jwt settings now authorization).run (sessionEffect i) ⟨w, .empty⟩ =
        some ((currentUser w credentials).map toUserRead, s') ∧ s'.db.users = w.users := by
  obtain ⟨objects, hrun⟩ := run_getCurrentUser_new hown haborted credentials
  have hcommit : (w.commitTx i).users = w.users := by
    rw [Accounts.commitTx, hown]
    rfl
  unfold me
  rw [hcredentials]
  cases hfound : currentUser w credentials with
  | error exc =>
      rw [hfound] at hrun
      exact ⟨_, run_session_error (Prog.run_bind_error (p := getCurrentUser credentials) hrun), rfl⟩
  | ok user =>
      rw [hfound] at hrun
      exact ⟨_, run_session_ok (Prog.run_bind_ok (p := getCurrentUser credentials) hrun), hcommit⟩

/-- Until it expires, the token of a login stands for its user, and afterwards for nobody. -/
theorem credentialsOf_issued {now issuedAt : Nat} {userId : UUID} {role : String}
    (huuid : py.uuidOf (py.uuidStr userId) = some userId)
    (hjwt : jwt.Honours settings (py.uuidStr userId) role (expiry settings none now)
      (issuedAt / 1000)) {scheme : String} (hscheme : scheme.toLower = "bearer") (later : Nat) :
    credentialsOf py jwt settings later (some (scheme,
        createAccessToken jwt settings now issuedAt (py.uuidStr userId) role none [])) =
      .ok (if later / 1000 ≤ expiry settings none now then .subject userId else .invalid) := by
  have hbearer : ¬ scheme.toLower ≠ "bearer" := fun h => h hscheme
  simp only [credentialsOf, if_neg hbearer, decode_created hjwt later]
  by_cases hlive : later / 1000 ≤ expiry settings none now
  · have hsub : (payloadOf (py.uuidStr userId) role (expiry settings none now)
        (issuedAt / 1000)).lookup "sub" = some (.str (py.uuidStr userId)) := rfl
    simp only [if_pos hlive, hsub, Workers.uuidOfJson, huuid]
  · simp only [if_neg hlive]

end Me

section Lifecycle

variable {sec : Security} {str : Lowercase} {s s' : Registry}

theorem authStep_grows {c : AuthCmd} {r : Except AuthExn c.Resp}
    (h : authStep s c = some (r, s')) : ∃ rows, s'.users = s.users ++ rows := by
  have hsame : ∀ {s' : Registry}, s'.users = s.users → ∃ rows, s'.users = s.users ++ rows :=
    fun h => ⟨[], h.trans (List.append_nil _).symm⟩
  cases c with
  | gensalt | uuid4 | rollback =>
      cases h
      exact hsame rfl
  | selectUser | selectRoleById =>
      simp only [authStep] at h
      split at h <;> cases h <;> exact hsame rfl
  | selectByEmail | selectRole =>
      simp only [authStep] at h
      split at h
      · cases h
        exact hsame rfl
      · split at h <;> cases h <;> exact hsame rfl
  | insertUser new =>
      simp only [authStep] at h
      split at h
      · cases h
        exact hsame rfl
      · split at h <;> cases h <;> exact hsame rfl
  | commit =>
      cases h
      by_cases haborted : s.aborted = true
      · exact hsame (if_pos haborted)
      · exact ⟨s.inserted, if_neg haborted⟩

theorem registerAll_grows (sec : Security) (str : Lowercase) (s : Registry) (calls : List Signup) :
    ∃ rows, (registerAll sec str s calls).users = s.users ++ rows := by
  induction calls generalizing s with
  | nil => exact ⟨[], (List.append_nil _).symm⟩
  | cons call calls ih =>
      have hcall : ∃ rows, ((call.run sec str s).elim s Prod.snd).users = s.users ++ rows := by
        cases hrun : call.run sec str s with
        | none => exact ⟨[], (List.append_nil _).symm⟩
        | some answer =>
            refine Prog.Issues.run (I := fun s' => ∃ rows, s'.users = s.users ++ rows)
              (Prog.issues_any _) ?_ hrun ⟨[], (List.append_nil _).symm⟩
            rintro c s₁ r s₂ - ⟨rows, hrows⟩ hstep
            obtain ⟨more, hmore⟩ := authStep_grows hstep
            exact ⟨rows ++ more, by rw [hmore, hrows, List.append_assoc]⟩
      obtain ⟨rows, hrows⟩ := hcall
      obtain ⟨more, hmore⟩ := ih ((call.run sec str s).elim s Prod.snd)
      exact ⟨rows ++ more, by rw [registerAll, hmore, hrows, List.append_assoc]⟩

/-- After a registration, whatever registrations follow, every spelling of the email logs in,
and until it expires the token shows the user as the tables then have it: deactivated users
and expired tokens are refused, and the role shown is the stored one. -/
theorem account_lifecycle (py : Python) (jwt : Jwt) (settings : JwtSettings) (roles : List Role)
    {uuids : Nat → UUID} (salts : Nat → Nat) (before after : List Signup) (call : Signup)
    (spelling scheme : String) (now issuedAt : Nat)
    (hdraws : ∀ j k, j < k → k ≤ before.length + after.length → uuids j ≠ uuids k)
    {user : LoadedUser} {s : Registry}
    (hcall : call.run sec str (registerAll sec str (.start roles uuids salts) before) =
      some (.ok user, s))
    (hspelling : str.lower spelling = str.lower call.data.email)
    (hscheme : scheme.toLower = "bearer")
    (huuid : py.uuidOf (py.uuidStr user.row.id) = some user.row.id)
    (hjwt : ∀ role, jwt.Honours settings (py.uuidStr user.row.id) role
      (expiry settings none now) (issuedAt / 1000)) :
    ∃ found token,
      (loginRequest (securityAt sec py jwt settings now issuedAt) str spelling
          call.data.password).run authStep (registerAll sec str s after) =
        some (.ok (found, token), registerAll sec str s after) ∧
      found.row = user.row ∧
      ∀ later (w : Accounts) i, w.own? i = none → w.aborted i = false →
        ∃ s', (me py jwt settings later (some (scheme, token))).run (sessionEffect i) ⟨w, .empty⟩ =
          some ((currentUser w (if later / 1000 ≤ expiry settings none now then
            .subject user.row.id else .invalid)).map toUserRead, s') := by
  have hstart : Tidy str (after.length + 1 + before.length) (.start roles uuids salts) :=
    .start str roles (fun j k hjk hk => hdraws j k hjk (by omega)) salts
  obtain ⟨hbefore, -⟩ := hstart.registerAll sec
  have hsettled := (hbefore.started call.now).toSettled
  obtain ⟨role, hashed, hrole, hhash, hrow, -, hadded⟩ := registration_adds hsettled hcall
  have htidy : Tidy str after.length s := by
    have h := (hbefore.run sec call).1
    rwa [hcall] at h
  have hrest : Tidy str (0 + after.length) s := by rwa [Nat.zero_add]
  obtain ⟨hafter, hroles⟩ := hrest.registerAll sec
  obtain ⟨rows, hrows⟩ := registerAll_grows sec str s after
  have hmem : user.row ∈ (registerAll sec str s after).users := by
    rw [hrows, hadded]
    exact List.mem_append_left _ (List.mem_append_right _ List.mem_cons_self)
  have htext : isText (str.lower spelling) = true := by
    rw [hspelling]
    exact str.lower_text _ call.data.email_text
  have hemail : (registerAll sec str s after).users.find?
      (fun row => row.email = str.lower spelling) = some user.row := by
    have hsame : user.row.email = str.lower spelling := by
      rw [hspelling, hrow]
      rfl
    rw [← hsame]
    exact find?_of_nodup hafter.distinct hmem
  obtain ⟨role', hfound⟩ : ∃ role', (registerAll sec str s after).roles.find?
      (fun r => r.id = user.row.roleId) = some role' := by
    rw [hroles, hadded, hrow]
    exact exists_find?_iff.mpr ⟨role, List.mem_of_find?_eq_some hrole, rfl⟩
  refine ⟨⟨user.row, role'⟩, _, login_ok hafter.toSettled htext hemail hfound ?_ ?_, rfl, ?_⟩
  · rw [hrow]
    exact sec.verify_hash _ _ _ hhash
  · rw [hrow]
    rfl
  · intro later w i hown haborted
    obtain ⟨s', hrun, -⟩ := run_me hown haborted
      (credentialsOf_issued huuid (hjwt role'.name) hscheme later)
    exact ⟨s', hrun⟩

/-- Tokens of one user, made at time 0: the text is the role. -/
def roleTokens : Jwt where
  encode payload _ _ :=
    match payload.get "role" with
    | .str role => role
    | _ => ""
  decode now token _ _ := if now ≤ 86400 then some (payloadOf "user-0" token 86400 0) else none

theorem account_lifecycle_ann :
    ∃ user s found token,
      (signup "Ann@example.org").run plainHash plainLower
          (.start [clientRole] (BitVec.ofNat 128) id) = some (.ok user, s) ∧
      (loginRequest (securityAt plainHash (.ofTable [] [("user-0", 0)]) roleTokens
          { jwtSecret := "sixteen-letters!" } 0 0) plainLower "ANN@example.org"
          "correct horse").run authStep
            (registerAll plainHash plainLower s [signup "bob@example.org"]) =
        some (.ok (found, token),
          registerAll plainHash plainLower s [signup "bob@example.org"]) ∧
      ∃ s', (me (.ofTable [] [("user-0", 0)]) roleTokens { jwtSecret := "sixteen-letters!" }
          86401000 (some ("Bearer", token))).run (sessionEffect 0) ⟨oneUser, .empty⟩ =
        some (.error (unauthorizedError "Invalid or expired token"), s') := by
  have hdraws : ∀ j k, j < k → k ≤ 0 + 1 → BitVec.ofNat 128 j ≠ BitVec.ofNat 128 k := by
    intro j k hjk hk
    have hk' : k = 1 := by omega
    have hj : j = 0 := by omega
    rw [hk', hj]
    decide
  have htidy : Tidy plainLower 2 (.start [clientRole] (BitVec.ofNat 128) id) :=
    .start plainLower _ (fun j k hjk hk => hdraws j k hjk (by omega)) id
  obtain ⟨hashed, role', -, hcall⟩ := signup_new plainHash (signup "Ann@example.org") htidy
    (fun row hrow => absurd hrow List.not_mem_nil) (by decide +kernel)
    (show _ = some clientRole from rfl) fun row hrow => absurd hrow List.not_mem_nil
  obtain ⟨found, token, hlogin, -, hme⟩ := account_lifecycle (.ofTable [] [("user-0", 0)])
    roleTokens { jwtSecret := "sixteen-letters!" } [clientRole] id [] [signup "bob@example.org"]
    (signup "Ann@example.org") "ANN@example.org" "Bearer" 0 0 hdraws hcall (by decide +kernel)
    (by decide +kernel) rfl fun role now => rfl
  obtain ⟨s', hrun⟩ := hme 86401000 oneUser 0 rfl rfl
  exact ⟨_, _, found, token, hcall, hlogin, s', hrun⟩

end Lifecycle

end EventAnalytics.Api
