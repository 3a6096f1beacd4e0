import EventAnalytics.Library.Atomic
import EventAnalytics.Library.IdentityMap
import EventAnalytics.Services.UserService

/-! A session of the service over its database: what a statement answers, and what it
does to the objects that the session holds. -/
namespace EventAnalytics.Services

open Library Db

structure UserSession where
  db : Accounts
  objects : IdentityMap fun user : LoadedUser => user.row.id

/-- What an ORM `UPDATE` of one user does to a loaded object. -/
def synchronizeIf (u : UUID) (version : Nat) (values : UserValues) (user : LoadedUser) :
    LoadedUser :=
  if user.row.id = u then synchronize user version values else user

theorem synchronize_id (user : LoadedUser) (version : Nat) (values : UserValues) :
    (synchronize user version values).row.id = user.row.id := by
  unfold synchronize
  split <;> rfl

theorem synchronizeIf_id (u : UUID) (version : Nat) (values : UserValues) (user : LoadedUser) :
    (synchronizeIf u version values user).row.id = user.row.id := by
  unfold synchronizeIf
  split
  · exact synchronize_id user version values
  · rfl

/-- What a statement does in the transaction `i` of the session. A `SELECT` returns the
object that is there as it is. A commit expires nothing (`expire_on_commit=False`), a
rollback everything. -/
def sessionEffect (i : Nat) (s : UserSession) :
    (c : UserCmd) → Option (Except Exn c.Resp × UserSession)
  | .selectUser u =>
    (userEffect i s.db (.selectUser u)).map fun answer =>
      match answer.1 with
      | .ok (some fresh) =>
        (.ok (some (s.objects.object fresh)), ⟨answer.2, s.objects.merge fresh⟩)
      | .ok none => (.ok none, ⟨answer.2, s.objects⟩)
      | .error exc => (.error exc, ⟨answer.2, s.objects⟩)
  | .selectRole name =>
    (userEffect i s.db (.selectRole name)).map fun answer => (answer.1, ⟨answer.2, s.objects⟩)
  | .updateUser u version values =>
    (userEffect i s.db (.updateUser u version values)).map fun answer =>
      match answer.1 with
      | .ok updated =>
        (.ok updated, ⟨answer.2,
          s.objects.modify (synchronizeIf u version values) (synchronizeIf_id u version values)⟩)
      | .error exc => (.error exc, ⟨answer.2, s.objects⟩)
  | .commit => (userEffect i s.db .commit).map fun answer => (answer.1, ⟨answer.2, s.objects⟩)
  | .rollback => (userEffect i s.db .rollback).map fun answer => (answer.1, ⟨answer.2, .empty⟩)

section Statements

variable {i : Nat} {s s' : UserSession} {u : UUID}

theorem visible?_id {w : Accounts} {row : UserRow} (h : w.visible? i u = some row) :
    row.id = u := by
  unfold Accounts.visible? at h
  split at h
  · split at h
    · rename_i hid
      rw [← Option.some.inj h]
      exact hid
    · simpa using List.find?_some h
  · simpa using List.find?_some h

theorem load_row {w : Accounts} {row : UserRow} {user : LoadedUser} (h : w.load row = some user) :
    user.row = row := by
  obtain ⟨role, -, rfl⟩ := Option.map_eq_some_iff.mp h
  rfl

theorem sessionEffect_selectUser {user : LoadedUser}
    (h : sessionEffect i s (.selectUser u) = some (.ok (some user), s')) :
    ∃ row fresh, s.db.visible? i u = some row ∧ s.db.load row = some fresh ∧
      user = s.objects.object fresh ∧ s' = ⟨s.db, s.objects.merge fresh⟩ := by
  obtain ⟨⟨r, w⟩, heffect, hanswer⟩ := Option.map_eq_some_iff.mp h
  simp only [userEffect] at heffect
  split at heffect
  · cases heffect
    cases hanswer
  · cases heffect
    cases hload : (s.db.visible? i u).bind s.db.load with
    | none =>
        rw [hload] at hanswer
        cases hanswer
    | some fresh =>
        rw [hload] at hanswer
        cases hanswer
        obtain ⟨row, hrow, hfresh⟩ := Option.bind_eq_some_iff.mp hload
        exact ⟨row, fresh, hrow, hfresh, rfl, rfl⟩

theorem sessionEffect_selectUser_none
    (h : sessionEffect i s (.selectUser u) = some (.ok none, s')) : s' = s := by
  obtain ⟨⟨r, w⟩, heffect, hanswer⟩ := Option.map_eq_some_iff.mp h
  cases userEffect_reads rfl heffect
  rcases r with exc | _ | user <;> cases hanswer
  rfl

theorem sessionEffect_selectUser_object {user : LoadedUser}
    (h : sessionEffect i s (.selectUser u) = some (.ok (some user), s')) :
    user.row.id = u ∧ s'.objects.get? u = some user ∧
      ∀ held, s.objects.get? u = some held → user = held := by
  obtain ⟨row, fresh, hrow, hfresh, rfl, rfl⟩ := sessionEffect_selectUser h
  have hid : fresh.row.id = u := by
    rw [load_row hfresh, visible?_id hrow]
  subst hid
  refine ⟨s.objects.key_object fresh, s.objects.get?_merge_self fresh, fun held hheld => ?_⟩
  rw [IdentityMap.object, hheld, Option.getD_some]

theorem sessionEffect_selectRole {name : String} {r : Except Exn (Option Role)}
    (h : sessionEffect i s (.selectRole name) = some (r, s')) :
    s' = s ∧
      ∀ role, r = .ok (some role) → s.db.roles.find? (fun r => r.name = name) = some role := by
  obtain ⟨⟨r', w⟩, heffect, hanswer⟩ := Option.map_eq_some_iff.mp h
  simp only [userEffect] at heffect
  split at heffect
  · cases heffect
    cases hanswer
    refine ⟨rfl, fun role hrole => ?_⟩
    cases hrole
  · cases heffect
    cases hanswer
    exact ⟨rfl, fun role hrole => Except.ok.inj hrole⟩

theorem sessionEffect_updateUser {version : Nat} {values : UserValues}
    (h : sessionEffect i s (.updateUser u version values) = some (.ok true, s')) :
    ∃ row, s.db.visible? i u = some row ∧ row.version = version ∧
      s'.db = { s.db with written := s.db.dropWrites i ++ [(i, values.apply row)] } ∧
      ∀ v, s'.objects.get? v = (s.objects.get? v).map (synchronizeIf u version values) := by
  obtain ⟨⟨r, w⟩, heffect, hanswer⟩ := Option.map_eq_some_iff.mp h
  cases r with
  | error exc => cases hanswer
  | ok updated =>
      cases hanswer
      rcases userEffect_update heffect with ⟨row, -, -, hrow, hversion, hw⟩ | ⟨hr, -⟩
      · exact ⟨row, hrow, hversion, hw, fun v =>
          IdentityMap.get?_modify _ _ (synchronizeIf_id u version values) v⟩
      · exact absurd rfl hr

end Statements

end EventAnalytics.Services
