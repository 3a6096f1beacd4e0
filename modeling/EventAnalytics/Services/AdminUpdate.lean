import EventAnalytics.Library.Lookup
import EventAnalytics.Services.UserSession

/-! Whether an admin update reports the user as it is stored. The row is written as asked
for. What is returned is the object of the session, which has been loaded before the
`UPDATE`: its columns follow the row, and its role does not. -/
namespace EventAnalytics.Services

open Library Db

structure UserView where
  role : Option String
  fullName : Option String
  isActive : Bool
  version : Nat
  deriving DecidableEq, Repr

def storedRole (w : Accounts) (row : UserRow) : Option String :=
  (w.roles.find? fun role => role.id = row.roleId).map Role.name

def stored (w : Accounts) (row : UserRow) : UserView where
  role := storedRole w row
  fullName := row.fullName
  isActive := row.isActive
  version := row.version

def shown (user : LoadedUser) : UserView where
  role := some user.role.name
  fullName := user.row.fullName
  isActive := user.row.isActive
  version := user.row.version

/-- The update reports what it has stored, stores what was asked for, and changes
nothing else. -/
structure ReportsStored (i : Nat) (before after : Accounts) (u : UUID) (data : UserAdminUpdate)
    (user : LoadedUser) : Prop where
  written : ∃ old new, before.visible? i u = some old ∧ after.visible? i u = some new ∧
    shown user = stored after new ∧
    new.fullName = (data.fullName <|> old.fullName) ∧
    new.isActive = data.isActive.getD old.isActive ∧
    storedRole after new = (data.role <|> storedRole before old)
  others : ∀ v, v ≠ u → after.visible? i v = before.visible? i v

/-- A session that has read and not written, on a `roles` table with its primary key. -/
structure OnlyRead (i : Nat) (s : UserSession) : Prop where
  own : s.db.own? i = none
  roleIds : (s.db.roles.map Role.id).Nodup

/-- The loaded object is as the row where the update gives no column, and it already has
the role that the update asks for, or that of the row when it asks for none. -/
structure Agrees (w : Accounts) (data : UserAdminUpdate) (row : UserRow) (user : LoadedUser) :
    Prop where
  version : user.row.version = row.version
  fullName : data.fullName = none → user.row.fullName = row.fullName
  isActive : data.isActive = none → user.row.isActive = row.isActive
  role : some user.role.name = (data.role <|> storedRole w row)

section Call

variable {i : Nat} {s s' : UserSession} {u : UUID} {data : UserAdminUpdate} {user : LoadedUser}

def FoundRole (w : Accounts) (data : UserAdminUpdate) (roleId : Option Nat) : Prop :=
  (data.role = none ∧ roleId = none) ∨
    ∃ name role, data.role = some name ∧ w.roles.find? (fun r => r.name = name) = some role ∧
      roleId = some role.id

theorem run_roleIdOf {roleId : Option Nat}
    (h : (roleIdOf data).run (sessionEffect i) s = some (.ok roleId, s')) :
    s' = s ∧ FoundRole s.db data roleId := by
  unfold roleIdOf at h
  split at h
  · rename_i hrole
    cases h
    exact ⟨rfl, .inl ⟨hrole, rfl⟩⟩
  · rename_i name hrole
    split at h
    · obtain ⟨found, s₁, hselect, h⟩ := Prog.run_perform_inv h
      obtain ⟨rfl, hfound⟩ := sessionEffect_selectRole hselect
      cases found with
      | none => cases h
      | some role =>
          cases h
          exact ⟨rfl, .inr ⟨name, role, hrole, hfound role rfl, rfl⟩⟩
    · cases h

def valuesOf (user : LoadedUser) (data : UserAdminUpdate) (roleId : Option Nat) : UserValues where
  version := user.row.version + 1
  fullName := data.fullName
  isActive := data.isActive
  roleId := roleId

/-- A call of `update_user` that has returned, on the row and the object that it found. -/
structure Updated (i : Nat) (s : UserSession) (u : UUID) (data : UserAdminUpdate)
    (row : UserRow) (found : LoadedUser) (roleId : Option Nat) (user : LoadedUser)
    (s' : UserSession) : Prop where
  visible : s.db.visible? i u = some row
  loaded : ∃ fresh, s.db.load row = some fresh ∧ found = s.objects.object fresh
  version : row.version = data.version
  role : FoundRole s.db data roleId
  returned : user = synchronize found data.version (valuesOf found data roleId)
  db : s'.db = { s.db with
    written := s.db.dropWrites i ++ [(i, (valuesOf found data roleId).apply row)] }
  /-- The last `SELECT` has answered with the object that is returned. -/
  object : s'.objects.get? u = some user

theorem run_updateUser (h : (updateUser u data).run (sessionEffect i) s = some (.ok user, s')) :
    ∃ row found roleId, Updated i s u data row found roleId user s' := by
  unfold updateUser at h
  obtain ⟨answer, s₁, hselect, h⟩ := Prog.run_perform_inv h
  cases answer with
  | none => cases h
  | some found =>
      obtain ⟨hid, hheld, -⟩ := sessionEffect_selectUser_object hselect
      obtain ⟨row, fresh, hrow, hfresh, hfound, rfl⟩ := sessionEffect_selectUser hselect
      obtain ⟨roleId, s₂, hroleIdOf, h⟩ := Prog.run_bind_inv h
      obtain ⟨rfl, hrole⟩ := run_roleIdOf hroleIdOf
      obtain ⟨updated, s₃, hupdate, h⟩ := Prog.run_perform_inv h
      cases updated with
      | false => cases h
      | true =>
          obtain ⟨again, s₄, hagain, h⟩ := Prog.run_perform_inv h
          cases again with
          | none => cases h
          | some last =>
              cases h
              obtain ⟨row', hrow', hversion, hdb, hobjects⟩ := sessionEffect_updateUser hupdate
              cases hrow.symm.trans hrow'
              obtain ⟨-, hlast, hsame⟩ := sessionEffect_selectUser_object hagain
              have hchanged :
                  last = synchronize found data.version (valuesOf found data roleId) := by
                apply hsame
                rw [hobjects u, hheld, Option.map_some, synchronizeIf, if_pos hid]
                rfl
              obtain ⟨row'', fresh', -, -, -, hs'⟩ := sessionEffect_selectUser hagain
              exact ⟨row, found, roleId, hrow, ⟨fresh, hfresh, hfound⟩, hversion, hrole, rfl,
                hs' ▸ hdb, hchanged ▸ hlast⟩

theorem storedRole_apply {w : Accounts} {row : UserRow} {found : LoadedUser} {roleId : Option Nat}
    (hids : (w.roles.map Role.id).Nodup) (hrole : FoundRole w data roleId) :
    storedRole w ((valuesOf found data roleId).apply row) = (data.role <|> storedRole w row) := by
  rcases hrole with ⟨hnone, rfl⟩ | ⟨name, role, hname, hfound, rfl⟩
  · rw [hnone]
    rfl
  · have hrow := find?_of_nodup hids (List.mem_of_find?_eq_some hfound)
    have hrole : role.name = name := by simpa using List.find?_some hfound
    rw [hname]
    change (w.roles.find? fun r => r.id = role.id).map Role.name = some name
    rw [hrow, Option.map_some, hrole]

section Row

variable {row : UserRow} {found : LoadedUser} {roleId : Option Nat}

theorem Updated.written (h : Updated i s u data row found roleId user s') :
    s'.db.visible? i u = some ((valuesOf found data roleId).apply row) := by
  have hown : s'.db.own? i = some ((valuesOf found data roleId).apply row) := by
    rw [h.db]
    exact own?_write s.db _
  have hid : row.id = u := visible?_id h.visible
  rw [Accounts.visible?, hown]
  exact if_pos hid

theorem Updated.others (h : Updated i s u data row found roleId user s')
    (hown : s.db.own? i = none) {v : UUID} (hv : v ≠ u) :
    s'.db.visible? i v = s.db.visible? i v := by
  have hown' : s'.db.own? i = some ((valuesOf found data roleId).apply row) := by
    rw [h.db]
    exact own?_write s.db _
  have hid : row.id = u := visible?_id h.visible
  have hne : row.id ≠ v := fun heq => hv (heq ▸ hid)
  have hrow : s'.db.row? v = s.db.row? v := by
    rw [h.db]
    rfl
  rw [Accounts.visible?, hown', Accounts.visible?, hown, ← hrow]
  exact if_neg hne

theorem Updated.storedRole (h : Updated i s u data row found roleId user s')
    (hids : (s.db.roles.map Role.id).Nodup) :
    storedRole s'.db ((valuesOf found data roleId).apply row) =
      (data.role <|> storedRole s.db row) := by
  rw [← storedRole_apply hids h.role, h.db]
  rfl

theorem Updated.shown_iff (h : Updated i s u data row found roleId user s')
    (hids : (s.db.roles.map Role.id).Nodup) :
    shown user = stored s'.db ((valuesOf found data roleId).apply row) ↔
      Agrees s.db data row found := by
  have hnew : stored s'.db ((valuesOf found data roleId).apply row) =
      { role := data.role <|> Services.storedRole s.db row
        fullName := data.fullName <|> row.fullName
        isActive := data.isActive.getD row.isActive
        version := found.row.version + 1 } := by
    rw [stored, h.storedRole hids]
    rfl
  rw [hnew, h.returned, synchronize, ← h.version]
  constructor
  · intro heq
    split at heq
    · rename_i hversion
      simp only [shown, UserView.mk.injEq, UserValues.apply, valuesOf] at heq
      obtain ⟨hrole', hname, hactive, -⟩ := heq
      refine ⟨hversion, fun hnone => ?_, fun hnone => ?_, hrole'⟩
      · simpa [hnone] using hname
      · simpa [hnone] using hactive
    · have hversion : found.row.version = found.row.version + 1 := congrArg UserView.version heq
      omega
  · intro hagrees
    rw [if_pos hagrees.version]
    simp only [shown, UserView.mk.injEq, UserValues.apply, valuesOf]
    refine ⟨hagrees.role, ?_, ?_, trivial⟩
    · cases hname : data.fullName with
      | none => exact hagrees.fullName hname
      | some name => rfl
    · cases hactive : data.isActive with
      | none => exact hagrees.isActive hactive
      | some active => rfl

theorem Updated.reportsStored_iff (h : Updated i s u data row found roleId user s')
    (hs : OnlyRead i s) :
    ReportsStored i s.db s'.db u data user ↔ Agrees s.db data row found := by
  rw [← h.shown_iff hs.roleIds]
  constructor
  · intro hreports
    obtain ⟨old, new, -, hnew, hshown, -⟩ := hreports.written
    rw [Option.some.inj (h.written.symm.trans hnew)]
    exact hshown
  · intro hshown
    exact ⟨⟨row, _, h.visible, h.written, hshown, rfl, rfl, h.storedRole hs.roleIds⟩,
      fun v hv => h.others hs.own hv⟩

end Row

/-- An update that succeeds reports the stored user if and only if the object that the
session has for it agrees with the row and already has the role that is asked for. -/
theorem reports_stored_iff (hs : OnlyRead i s)
    (h : (updateUser u data).run (sessionEffect i) s = some (.ok user, s')) :
    ReportsStored i s.db s'.db u data user ↔
      ∃ row fresh, s.db.visible? i u = some row ∧ s.db.load row = some fresh ∧
        Agrees s.db data row (s.objects.object fresh) := by
  obtain ⟨row, found, roleId, hupdated⟩ := run_updateUser h
  obtain ⟨fresh, hfresh, hfound⟩ := hupdated.loaded
  rw [hupdated.reportsStored_iff hs]
  constructor
  · intro hagrees
    exact ⟨row, fresh, hupdated.visible, hfresh, hfound ▸ hagrees⟩
  · rintro ⟨row', fresh', hrow', hfresh', hagrees⟩
    cases hupdated.visible.symm.trans hrow'
    cases hfresh.symm.trans hfresh'
    exact hfound ▸ hagrees

/-- Every object of the session is as its row is stored. -/
def UpToDate (i : Nat) (s : UserSession) : Prop :=
  ∀ held ∈ s.objects.objects, (s.db.visible? i held.row.id).bind s.db.load = some held

theorem UpToDate.object_eq (hs : UpToDate i s) {row : UserRow} {fresh : LoadedUser}
    (hrow : s.db.visible? i u = some row) (hfresh : s.db.load row = some fresh) :
    s.objects.object fresh = fresh := by
  have hid : fresh.row.id = u := by
    rw [load_row hfresh, visible?_id hrow]
  unfold IdentityMap.object
  cases hget : s.objects.get? fresh.row.id with
  | none => rfl
  | some held =>
      have hheld := hs held (IdentityMap.mem_of_get? hget)
      have hkey : held.row.id = fresh.row.id := IdentityMap.key_of_get? (m := s.objects) hget
      rw [hkey, hid, hrow] at hheld
      exact Option.some.inj (hheld.symm.trans hfresh)

theorem agrees_load_iff {w : Accounts} {row : UserRow} {fresh : LoadedUser}
    (hfresh : w.load row = some fresh) :
    Agrees w data row fresh ↔ ∀ name, data.role = some name → storedRole w row = some name := by
  obtain ⟨role, hrole, rfl⟩ := Option.map_eq_some_iff.mp hfresh
  have hstored : storedRole w row = some role.name := by
    rw [storedRole, hrole, Option.map_some]
  constructor
  · intro hagrees name hname
    have hsame := hagrees.role
    rw [hname] at hsame
    exact hstored.trans hsame
  · intro hsame
    refine ⟨rfl, fun _ => rfl, fun _ => rfl, ?_⟩
    cases hname : data.role with
    | none => exact hstored.symm
    | some name => exact hstored.symm.trans (hsame name hname)

/-- In a session whose objects are as they are stored, the report is wrong exactly when
the update changes the role. -/
theorem reportsStored_iff_of_upToDate (hs : OnlyRead i s) (hfresh : UpToDate i s)
    (h : (updateUser u data).run (sessionEffect i) s = some (.ok user, s')) :
    ReportsStored i s.db s'.db u data user ↔
      ∀ name, data.role = some name →
        ∃ row, s.db.visible? i u = some row ∧ storedRole s.db row = some name := by
  obtain ⟨row, found, roleId, hupdated⟩ := run_updateUser h
  obtain ⟨fresh, hload, hfound⟩ := hupdated.loaded
  rw [hfresh.object_eq hupdated.visible hload] at hfound
  rw [hupdated.reportsStored_iff hs, hfound, agrees_load_iff hload]
  constructor
  · intro hsame name hname
    exact ⟨row, hupdated.visible, hsame name hname⟩
  · intro hsame name hname
    obtain ⟨row', hrow', hrole⟩ := hsame name hname
    rw [Option.some.inj (hupdated.visible.symm.trans hrow')]
    exact hrole

end Call

def oneUser : Accounts where
  users := [⟨1, "ana@example.com", "x", none, true, 2, 1, 0⟩]
  roles := [⟨1, "admin"⟩, ⟨2, "analyst"⟩, ⟨3, "client_app"⟩]
  written := []
  aborted := fun _ => false
  log := []

theorem onlyRead_oneUser : OnlyRead 0 ⟨oneUser, .empty⟩ :=
  ⟨rfl, by decide⟩

theorem reports_stored_iff_rename :
    ∃ user s', (updateUser 1 { fullName := some "Ana", version := 1 }).run (sessionEffect 0)
        ⟨oneUser, .empty⟩ = some (.ok user, s') ∧
      ReportsStored 0 oneUser s'.db 1 { fullName := some "Ana", version := 1 } user :=
  ⟨_, _, rfl, (reports_stored_iff onlyRead_oneUser rfl).mpr
    ⟨_, _, rfl, rfl, rfl, fun _ => rfl, fun _ => rfl, rfl⟩⟩

/-- An analyst is made an admin. The row says so, and the answer still says analyst. -/
theorem role_reported_stale :
    ¬ ∀ (i : Nat) (s s' : UserSession) (u : UUID) (data : UserAdminUpdate) (user : LoadedUser),
      OnlyRead i s → (updateUser u data).run (sessionEffect i) s = some (.ok user, s') →
        ReportsStored i s.db s'.db u data user := by
  intro h
  have hreports := h 0 ⟨oneUser, .empty⟩ _ 1 { role := some "admin", version := 1 } _
    onlyRead_oneUser rfl
  obtain ⟨old, new, -, hnew, hshown, -⟩ := hreports.written
  cases hnew
  exact absurd hshown (by decide)

end EventAnalytics.Services
