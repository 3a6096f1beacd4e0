import EventAnalytics.Api.Admin
import EventAnalytics.Services.Sessions

/-! Who an admin update answers to. A request loads its caller before anything else, and the
caller is judged by the row that is stored at that moment, among any number of requests and
registrations. -/
namespace EventAnalytics.Api

open Library Library.Discipline Db Db.Accounts Services

/-- What the stored row of `u` lets `u` do. -/
def permits (w : Accounts) (u : UUID) (permission : Permission) : Bool :=
  ((w.row? u).bind w.load).any fun user =>
    user.row.isActive && hasPermission user.role.name permission

structure PatchCall where
  credentials : Credentials
  userId : UUID
  body : UserAdminUpdate

/-- Any number of `PATCH /admin/users/{user_id}` requests, none of which has begun. -/
def patchRequests (calls : Nat → PatchCall) (db : Accounts) :
    Config UserCmd.Resp Exn Sessions UserRead :=
  ⟨.opened db, fun i =>
    .ready (patchUser (calls i).credentials (calls i).userId (calls i).body)⟩

/-- Between `a` and `b`, request `i` looks its caller up while the caller may manage users,
with at most `n` updates committed so far. -/
def Granted (calls : Nat → PatchCall) (a b : Config UserCmd.Resp Exn Sessions UserRead)
    (i n : Nat) : Prop :=
  ∃ caller, (calls i).credentials = .subject caller ∧
    Meets sessionService .any a b i (.selectUser caller) fun w =>
      permits w.db caller .usersManage = true ∧ w.db.log.length ≤ n

theorem Granted.mono {calls : Nat → PatchCall} {a b : Config UserCmd.Resp Exn Sessions UserRead}
    {i m n : Nat} (h : Granted calls a b i m) (hle : m ≤ n) : Granted calls a b i n := by
  obtain ⟨caller, hcaller, hmeets⟩ := h
  exact ⟨caller, hcaller, hmeets.mono fun w hw => ⟨hw.1, hw.2.trans hle⟩⟩

/-- What request `j` has committed, or has written and not committed, it was granted. -/
structure Answerable (calls : Nat → PatchCall) (a b : Config UserCmd.Resp Exn Sessions UserRead)
    (j : Nat) (w : Sessions) : Prop where
  logged : ∀ n e, w.db.log[n]? = some e → e.session = j → Granted calls a b j n
  pending : ∀ jr ∈ w.db.written, jr.1 = j → Granted calls a b j w.db.log.length

section Sound

variable {calls : Nat → PatchCall} {a b : Config UserCmd.Resp Exn Sessions UserRead} {j : Nat}
  {w w' : Sessions}

theorem Answerable.of_db (h : Answerable calls a b j w) (hlog : w'.db.log = w.db.log)
    (hwritten : ∀ jr ∈ w'.db.written, jr ∈ w.db.written) : Answerable calls a b j w' := by
  refine ⟨fun n e he => h.logged n e (hlog ▸ he), fun jr hjr hj => ?_⟩
  rw [hlog]
  exact h.pending jr (hwritten jr hjr) hj

theorem Answerable.step {i : Nat} {c : UserCmd} (h : Answerable calls a b j w)
    (hduty : i = j → ∀ u version values, c = .updateUser u version values →
      Granted calls a b j w.db.log.length)
    (hstep : DbStep i w.db c w'.db) : Answerable calls a b j w' := by
  generalize hdb : w'.db = db at hstep
  cases hstep with
  | same => exact h.of_db (congrArg Accounts.log hdb) fun jr hjr => hdb ▸ hjr
  | drop =>
      refine h.of_db (by rw [hdb]) fun jr hjr => ?_
      rw [hdb] at hjr
      exact List.mem_of_mem_filter hjr
  | write hrow =>
      refine ⟨fun n e he => h.logged n e (by rwa [hdb] at he), fun jr hjr hj => ?_⟩
      rw [hdb] at hjr ⊢
      rcases List.mem_append.mp hjr with hjr | hjr
      · exact h.pending jr (List.mem_of_mem_filter hjr) hj
      · rw [List.mem_singleton.mp hjr] at hj
        exact hduty hj _ _ _ rfl
  | @commit old new aborted hown hold =>
      refine ⟨fun n e he hj => ?_, fun jr hjr hj => ?_⟩
      · rw [hdb] at he
        by_cases hn : n < w.db.log.length
        · rw [List.getElem?_append_left hn] at he
          exact h.logged n e he hj
        · rw [List.getElem?_append_right (Nat.le_of_not_lt hn)] at he
          have hmem := List.mem_singleton.mp (List.mem_of_getElem? he)
          subst hmem
          exact (h.pending _ (mem_of_own? hown) hj).mono (Nat.le_of_not_lt hn)
      · rw [hdb] at hjr ⊢
        refine (h.pending jr (List.mem_of_mem_filter hjr) hj).mono ?_
        simp

/-- The requests between `a` and `b`, of which `j` has to be granted what it writes. -/
noncomputable def answerable (calls : Nat → PatchCall)
    (a b : Config UserCmd.Resp Exn Sessions UserRead) (j : Nat) :
    Discipline UserCmd.Resp Exn Sessions Fate Arrival where
  machine := sessionService
  policy := Policy.any.between sessionService a b
  inv := Answerable calls a b j
  rely := Untouched
  duty i w c := i = j → ∀ u version values, c = .updateUser u version values →
    Granted calls a b j w.db.log.length
  rely_refl := Untouched.refl
  rely_trans := fun _ _ _ _ => Untouched.trans
  step_sound := by
    intro i fate w c r w' _ hinv hduty hexec
    obtain ⟨hstep, hobjects⟩ := service_exec hexec
    exact ⟨hinv.step hduty hstep, fun k hk => hstep.untouched hk (hobjects k hk)⟩
  crash_sound := by
    intro i w c _ hinv
    have hstep : DbStep i w.db .rollback (w.db.rollbackTx i) := .drop _
    exact ⟨hinv.step (fun _ _ _ _ hc => by cases hc) hstep,
      fun k hk => hstep.untouched hk (setAt_ne _ _ hk)⟩
  env_sound := by
    intro arrival w w' _ hinv henv
    obtain ⟨row, henrols, rfl⟩ := service_env henv
    exact ⟨hinv.of_db rfl fun _ hjr => hjr, fun k => ⟨rfl, rfl, rfl, le_rfl⟩⟩

end Sound

section Call

variable {calls : Nat → PatchCall} {a b : Config UserCmd.Resp Exn Sessions UserRead} {j : Nat}
  {w : Sessions}

/-- The first statement of a session reads what is stored. -/
theorem selectUser_first {fate : Fate} {u : UUID} {user : LoadedUser} {w' : Sessions}
    (hown : w.db.own? j = none) (hobjects : w.objects j = .empty)
    (hexec : sessionService.exec j fate w (.selectUser u) = some (.ok (some user), w')) :
    (w.db.row? u).bind w.db.load = some user := by
  cases fate with
  | ok =>
      obtain ⟨⟨r, s'⟩, heffect, hanswer⟩ := Option.map_eq_some_iff.mp hexec
      cases congrArg Prod.fst hanswer
      obtain ⟨row, fresh, hrow, hload, hobject, -⟩ := sessionEffect_selectUser heffect
      have hvisible : w.db.visible? j u = w.db.row? u := by
        rw [visible?, hown]
      have hfresh : (w.session j).objects.object fresh = fresh := by
        rw [Sessions.session, hobjects]
        rfl
      rw [← hvisible, hobject, hfresh, ← hload]
      exact hrow ▸ rfl
  | lost => cases hexec
  | rejected => cases hexec

theorem wp_getCurrentUser (hown : w.db.own? j = none) (hobjects : w.objects j = .empty) :
    (answerable calls a b j).wp j (getCurrentUser (calls j).credentials)
      (ends (fun user w' => hasPermission user.role.name .usersManage = true →
        Granted calls a b j w'.db.log.length) fun _ _ => True) w := by
  cases hcaller : (calls j).credentials with
  | missing => trivial
  | invalid => trivial
  | subject caller =>
      unfold getCurrentUser
      refine wp_seq (S := fun found w' => ∀ user, found = some user → user.row.isActive = true →
        hasPermission user.role.name .usersManage = true →
          Granted calls a b j w'.db.log.length) (wp_perform (fun _ _ _ _ hc => by cases hc)
            (fun _ _ _ => trivial) ?_) ?_
      · intro fate r w₁ hadm hexec w' hlater
        obtain ⟨-, hmeets⟩ := Policy.between_step hadm
        cases r with
        | error exc => trivial
        | ok found =>
            rintro user rfl hactive hrole
            refine ⟨caller, hcaller, hmeets.mono ?_⟩
            rintro _ rfl
            refine ⟨?_, (service_exec hexec).1.grows.trans hlater.2.grows⟩
            rw [permits, selectUser_first hown hobjects hexec, Option.any_some, hactive, hrole]
            rfl
      · intro found w' hfound
        cases found with
        | none => trivial
        | some user =>
            dsimp only
            split
            · rename_i hactive
              exact hfound user rfl hactive
            · trivial

theorem wp_granted {α : Type} (p : UserApp α) (h : Granted calls a b j w.db.log.length) :
    (answerable calls a b j).wp j p (fun _ _ => True) w := by
  induction p generalizing w with
  | ret x => trivial
  | raise exc => trivial
  | call c k ih =>
      refine ⟨fun _ _ _ _ _ => h, fun _ _ _ => trivial, fun fate r w₁ _ hexec w' hlater => ?_⟩
      exact ih r (h.mono ((service_exec hexec).1.grows.trans hlater.2.grows))

theorem wp_issuesNoUpdate {c : UserCmd}
    (hc : ∀ u version values, c ≠ .updateUser u version values) :
    (answerable calls a b j).wp j (execute c) (ends (fun _ _ => True) fun _ _ => True) w :=
  wp_perform_any fun _ u version values heq => absurd heq (hc u version values)

theorem wp_patchUser (hown : w.db.own? j = none) (hobjects : w.objects j = .empty) :
    (answerable calls a b j).wp j
      (patchUser (calls j).credentials (calls j).userId (calls j).body)
      (ends (fun _ _ => True) fun _ _ => True) w := by
  have hrollback : ∀ {w}, (answerable calls a b j).wp j (execute .rollback)
      (ends (fun _ _ => True) fun _ _ => True) w :=
    wp_issuesNoUpdate fun _ _ _ h => by cases h
  unfold patchUser Db.getDb withSession
  refine wp_seq (S := fun _ _ => True) (wp_try (F := fun _ _ => True) ?_ fun exc w₁ _ => ?_)
    fun read w₁ _ => wp_seq hrollback fun _ _ _ => trivial
  · refine wp_seq (S := fun _ _ => True) (wp_seq (wp_getCurrentUser hown hobjects) ?_)
      fun read w₁ _ => wp_seq (wp_issuesNoUpdate fun _ _ _ h => by cases h) fun _ _ _ => trivial
    intro user w₁ hgranted
    unfold requirePermission
    split
    · rename_i hrole
      refine wp_mono (fun o w h => ?_) (wp_granted _ (hgranted hrole))
      cases o <;> trivial
    · trivial
  · exact wp_seq hrollback fun _ _ _ => trivial

end Call

section Runs

variable {calls : Nat → PatchCall} {db : Accounts}
  {since cfg : Config UserCmd.Resp Exn Sessions UserRead}

theorem keeps_sessions (calls : Nat → PatchCall) (db : Accounts) :
    (sessions db).Keeps (fun _ _ _ => True) (patchRequests calls db) :=
  ⟨.refl db, fun _ => threadOk_free (fun _ _ => trivial) _ _⟩

theorem traced_of_reach (hreach : Reach sessionService .any (patchRequests calls db) cfg) :
    Traced db cfg.world.db :=
  ((keeps_sessions calls db).reach hreach).inv

theorem answerable_of_ready (hquiet : Quiet db) {j : Nat} {a b}
    (huntouched : Untouched j (.opened db) since.world) :
    Answerable calls a b j since.world := by
  refine ⟨fun n e he hj => ?_, fun jr hjr hj => ?_⟩
  · have hmine : e ∈ since.world.db.log.filter fun e => e.session = j :=
      List.mem_filter.mpr ⟨List.mem_of_getElem? he, decide_eq_true hj⟩
    rw [huntouched.mine] at hmine
    simp [Sessions.opened, hquiet.log] at hmine
  · have hnone : since.world.db.own? j = none := by
      rw [huntouched.own]
      simp [Sessions.opened, own?, hquiet.written]
    have hfind := Option.map_eq_none_iff.mp hnone
    rw [List.find?_eq_none] at hfind
    exact absurd (decide_eq_true hj) (hfind jr hjr)

theorem answerable_of_reach (hquiet : Quiet db)
    (hbefore : Reach sessionService .any (patchRequests calls db) since) {j : Nat}
    {p : UserApp UserRead} (hready : since.threads j = .ready p)
    (hafter : Reach sessionService .any since cfg) : Answerable calls since cfg j cfg.world := by
  have huntouched : Untouched j (.opened db) since.world :=
    (keeps_sessions calls db).ready hbefore hready
  have hstart := hbefore.ready hready
  have hkeeps : (answerable calls since cfg j).Keeps (fun _ _ _ => True) since := by
    refine ⟨answerable_of_ready hquiet huntouched, fun i => ?_⟩
    by_cases hi : i = j
    · subst hi
      rw [hready]
      intro w hlater
      have hsame := huntouched.trans hlater.2
      cases hstart
      refine wp_mono (fun _ _ _ => trivial) (wp_patchUser (hsame.own.trans ?_) hsame.objects)
      simp [Sessions.opened, own?, hquiet.written]
    · exact threadOk_free (fun _ _ h => absurd h hi) _ _
  exact (hkeeps.reach hafter.between).inv

/-- A request that begins after `since` and commits has been granted its update after
`since`, by what was stored of its caller before the update. -/
theorem update_authorised (hquiet : Quiet db)
    (hbefore : Reach sessionService .any (patchRequests calls db) since) {j : Nat}
    {p : UserApp UserRead} (hready : since.threads j = .ready p)
    (hafter : Reach sessionService .any since cfg) {n : Nat} {e : Update}
    (he : cfg.world.db.log[n]? = some e) (hj : e.session = j) :
    Granted calls since cfg j n :=
  (answerable_of_reach hquiet hbefore hready hafter).logged n e he hj

theorem row?_id {w : Accounts} {u : UUID} {row : UserRow} (h : w.row? u = some row) :
    row.id = u := by
  simpa using List.find?_some h

def staff : Accounts where
  users := [⟨1, "ana@example.com", "x", none, true, 2, 1, 0⟩,
    ⟨9, "root@example.com", "y", none, true, 1, 1, 0⟩]
  roles := [⟨1, "admin"⟩, ⟨2, "analyst"⟩, ⟨3, "client_app"⟩]
  written := []
  aborted := fun _ => false
  log := []

/-- Request 0 is the admin's, and every other is the analyst's. -/
def promoteAna (i : Nat) : PatchCall where
  credentials := .subject (if i = 0 then 9 else 1)
  userId := 1
  body := { role := some "admin", version := 1 }

theorem update_authorised_promotion :
    ∃ cfg e, Reach sessionService .any (patchRequests promoteAna staff) cfg ∧
      cfg.world.db.log[0]? = some e ∧
      Granted promoteAna (patchRequests promoteAna staff) cfg e.session 0 := by
  obtain ⟨cfg, hreach, htest⟩ := exists_reach_of_run (M := sessionService) (π := .any)
    [.start 0, .step 0 .ok, .start 1, .step 1 .ok, .step 0 .ok, .step 0 .ok, .step 0 .ok,
      .step 0 .ok, .step 0 .ok]
    (patchRequests promoteAna staff)
    (fun cfg => cfg.world.db.log[0]?.isSome) (by decide +kernel)
  obtain ⟨e, he⟩ := Option.isSome_iff_exists.mp htest
  exact ⟨cfg, e, hreach, he, update_authorised ⟨rfl, rfl⟩ .refl rfl hreach he rfl⟩

/-- A user whom no update has touched may do what he could at the start, or what the role of
a registration lets him do. -/
theorem permits_of_traced {start w : Accounts} (h : Traced start w) {u : UUID}
    {permission : Permission} (hpermits : permits w u permission = true)
    (hlog : ∀ e ∈ w.log, e.new.id ≠ u) :
    permits start u permission = true ∨ hasPermission "client_app" permission = true := by
  obtain ⟨user, hfound, hmay⟩ := (Option.any_eq_true _ _).mp hpermits
  obtain ⟨row, hrow, hload⟩ := Option.bind_eq_some_iff.mp hfound
  have hload : start.load row = some user := by
    unfold load at hload ⊢
    rwa [← h.roles]
  rcases h.rows u row hrow with hstart | hclient | ⟨e, he, rfl⟩
  · left
    rw [permits, hstart, Option.bind_some, hload, Option.any_some]
    exact hmay
  · right
    rw [hload, Option.any_some] at hclient
    rw [← of_decide_eq_true hclient]
    exact (Bool.and_eq_true_iff.mp hmay).2
  · exact absurd (row?_id hrow) (hlog e he)

/-- While nobody may manage users, no update is ever committed: the rows stay as they are,
and nobody may do more than before, but for what every registration grants. -/
theorem privileges_frozen (hquiet : Quiet db)
    (hnobody : ∀ u, permits db u .usersManage = false)
    (hreach : Reach sessionService .any (patchRequests calls db) cfg) :
    cfg.world.db.log = [] ∧
      (∀ u row, db.row? u = some row → cfg.world.db.row? u = some row) ∧
      ∀ u permission, permits cfg.world.db u permission = true →
        permits db u permission = true ∨ hasPermission "client_app" permission = true := by
  have hempty : cfg.world.db.log = [] := by
    cases hlog : cfg.world.db.log with
    | nil => rfl
    | cons e rest =>
        have hfirst : cfg.world.db.log[0]? = some e := by rw [hlog]; rfl
        obtain ⟨caller, -, mid, hpasses, -, hmay, hnone⟩ :=
          (answerable_of_reach hquiet .refl rfl hreach).logged 0 e hfirst rfl
        have hmid := List.length_eq_zero_iff.mp (Nat.le_zero.mp hnone)
        rcases permits_of_traced (traced_of_reach hpasses.before) hmay (by simp [hmid]) with h | h
        · exact absurd h (by rw [hnobody caller]; exact Bool.false_ne_true)
        · exact absurd h (by decide)
  have htraced := traced_of_reach hreach
  refine ⟨hempty, fun u row hrow => ?_, fun u permission hmay => ?_⟩
  · rcases htraced.kept u row hrow with h | ⟨e, he, -⟩
    · exact h
    · simp [hempty] at he
  · exact permits_of_traced htraced hmay (by simp [hempty])

def unmanaged : Accounts :=
  { staff with users := [⟨1, "ana@example.com", "x", none, true, 2, 1, 0⟩] }

theorem nobody_unmanaged (u : UUID) : permits unmanaged u .usersManage = false := by
  by_cases hu : u = 1
  · subst hu
    rfl
  · have hnone : unmanaged.row? u = none := by
      simp only [Accounts.row?, unmanaged, List.find?_singleton]
      exact if_neg (by simpa using fun h => hu h.symm)
    rw [permits, hnone]
    rfl

def refused : Thread UserCmd.Resp Exn UserRead → Bool
  | .running (.raise _) => true
  | _ => false

theorem exists_raise_of_refused {t : Thread UserCmd.Resp Exn UserRead} (h : refused t = true) :
    ∃ exc, t = .running (.raise exc) := by
  unfold refused at h
  split at h
  · exact ⟨_, rfl⟩
  · cases h

theorem privileges_frozen_analyst :
    ∃ cfg, Reach sessionService .any (patchRequests promoteAna unmanaged) cfg ∧
      (∃ exc, cfg.threads 1 = .running (.raise exc)) ∧ cfg.world.db.users.length = 2 ∧
      cfg.world.db.log = [] := by
  obtain ⟨cfg, hreach, htest⟩ := exists_reach_of_run (M := sessionService) (π := .any)
    [.start 1, .env (.registered ⟨5, "new@example.com", "z", none, true, 3, 1, 0⟩),
      .step 1 .ok, .step 1 .ok]
    (patchRequests promoteAna unmanaged)
    (fun cfg => cfg.world.db.users.length = 2 && refused (cfg.threads 1)) (by decide +kernel)
  obtain ⟨hlength, hraised⟩ := Bool.and_eq_true_iff.mp htest
  exact ⟨cfg, hreach, exists_raise_of_refused hraised, of_decide_eq_true hlength,
    (privileges_frozen ⟨rfl, rfl⟩ nobody_unmanaged hreach).1⟩

end Runs

end EventAnalytics.Api
