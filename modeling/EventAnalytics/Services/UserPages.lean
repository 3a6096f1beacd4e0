import EventAnalytics.Db.Accounts
import EventAnalytics.Library.Lookup
import EventAnalytics.Library.Pages

/-! Whether the pages of `list_users` show every user once. They are cut from an order by
`created_at` alone, and users who were created in one transaction share it. -/
namespace EventAnalytics.Services

open Library Db

/-- The primary key of `users` and the foreign key on `roles`. -/
structure Keyed (w : Accounts) : Prop where
  ids : (w.users.map UserRow.id).Nodup
  roles : ∀ row ∈ w.users, ∃ role ∈ w.roles, role.id = row.roleId

/-- The order in which one query finds the users. -/
structure UserOrder (w : Accounts) where
  rows : List UserRow
  descending : Descending UserRow.createdAt w.users rows

/-- `list_users`, with the roles by `selectinload`. -/
def listUsers (w : Accounts) (order : UserOrder w) (limit : Nat := 50) (offset : Nat := 0) :
    List LoadedUser :=
  (page order.rows limit offset).filterMap w.load

/-- A client that reads on until a page is empty, with at most `fuel` requests. -/
def readUsers (w : Accounts) (orders : Nat → UserOrder w) (limit fuel : Nat) :
    Option (List LoadedUser) :=
  readUntilEmpty (fun k => listUsers w (orders k) limit (k * limit)) fuel 0

/-- However the database orders the users who tie, each query for itself, the client
comes to an end and has every user once. -/
def PagesCover (w : Accounts) (limit : Nat) : Prop :=
  ∀ (orders : Nat → UserOrder w) (fuel : Nat), w.users.length < fuel →
    ∃ users, readUsers w orders limit fuel = some users ∧
      (users.map LoadedUser.row).Perm w.users

section Pages

variable {w : Accounts} {limit : Nat}

theorem rows_load (hw : Keyed w) {rows : List UserRow} (hrows : ∀ row ∈ rows, row ∈ w.users) :
    (rows.filterMap w.load).map LoadedUser.row = rows := by
  induction rows with
  | nil => rfl
  | cons row rows ih =>
      obtain ⟨hrow, hrest⟩ := List.forall_mem_cons.mp hrows
      obtain ⟨role, hfound⟩ : ∃ role, w.roles.find? (fun role => role.id = row.roleId) =
          some role :=
        exists_find?_iff.mpr (hw.roles row hrow)
      have hload : w.load row = some ⟨row, role⟩ := by
        rw [Accounts.load, hfound, Option.map_some]
      rw [List.filterMap_cons_some hload, List.map_cons, ih hrest]

theorem rows_listUsers (hw : Keyed w) (order : UserOrder w) (offset : Nat) :
    (listUsers w order limit offset).map LoadedUser.row = page order.rows limit offset := by
  apply rows_load hw
  intro row hrow
  exact order.descending.perm.subset (List.mem_of_mem_drop (List.mem_of_mem_take hrow))

theorem listUsers_eq_nil_iff (hw : Keyed w) (hlimit : 1 ≤ limit) (order : UserOrder w) (k : Nat) :
    listUsers w order limit (k * limit) = [] ↔ pageCount w.users.length limit ≤ k := by
  rw [← List.map_eq_nil_iff (f := LoadedUser.row), rows_listUsers hw, page_eq_nil_iff hlimit,
    order.descending.length_eq, pageCount_le_iff hlimit]

theorem readUsers_eq (hw : Keyed w) (hlimit : 1 ≤ limit) (orders : Nat → UserOrder w) {fuel : Nat}
    (hfuel : w.users.length < fuel) :
    ∃ users, readUsers w orders limit fuel = some users ∧
      users.map LoadedUser.row =
        allPages (fun k => (orders k).rows) limit (pageCount w.users.length limit) := by
  have hcount : pageCount w.users.length limit ≤ w.users.length := by
    rw [pageCount_le_iff hlimit]
    exact Nat.le_mul_of_pos_right _ hlimit
  have hfuel' : pageCount w.users.length limit < 0 + fuel := by omega
  have hread := readUntilEmpty_eq (fun k => listUsers_eq_nil_iff hw hlimit (orders k) k)
    (Nat.zero_le _) hfuel'
  refine ⟨_, hread, ?_⟩
  rw [List.map_flatMap, Nat.sub_zero, ← List.range_eq_range', allPages]
  apply List.flatMap_congr
  intro k _
  exact rows_listUsers hw (orders k) _

theorem pagesCover_iff_allPages (hw : Keyed w) (hlimit : 1 ≤ limit) :
    PagesCover w limit ↔
      ∀ orders : Nat → List UserRow, (∀ k, Descending UserRow.createdAt w.users (orders k)) →
        (allPages orders limit (pageCount w.users.length limit)).Perm w.users := by
  constructor
  · intro hcover orders horders
    let found : Nat → UserOrder w := fun k => ⟨orders k, horders k⟩
    obtain ⟨users, hread, hperm⟩ := hcover found _ (Nat.lt_succ_self _)
    obtain ⟨users', hread', hrows⟩ := readUsers_eq hw hlimit found (Nat.lt_succ_self _)
    rw [Option.some.inj (hread.symm.trans hread'), hrows] at hperm
    exact hperm
  · intro hall orders fuel hfuel
    obtain ⟨users, hread, hrows⟩ := readUsers_eq hw hlimit orders hfuel
    refine ⟨users, hread, ?_⟩
    rw [hrows]
    exact hall _ fun k => (orders k).descending

/-- The pages cover the table if and only if none of them ends inside a group of users
with one `created_at`. -/
theorem user_pages_cover_iff (hw : Keyed w) (hlimit : 1 ≤ limit) :
    PagesCover w limit ↔ ∀ k, ¬ Splits UserRow.createdAt w.users (k * limit) := by
  rw [pagesCover_iff_allPages hw hlimit, allPages_perm_iff (List.Nodup.of_map _ hw.ids) hlimit]

/-- Users who were created one at a time are all listed once, by every page size. -/
theorem pagesCover_of_distinct (hw : Keyed w) (hlimit : 1 ≤ limit)
    (hdistinct : (w.users.map UserRow.createdAt).Nodup) : PagesCover w limit := by
  rw [pagesCover_iff_allPages hw hlimit, allPages_perm_iff (List.Nodup.of_map _ hw.ids) hlimit]
  intro k
  exact not_splits_of_nodup hdistinct (k * limit)

end Pages

/-- The tables that the seed script leaves: three users of one transaction. -/
def seeded : Accounts where
  users := [⟨1, "admin@example.com", "x", some "Admin User", true, 1, 1, 0⟩,
    ⟨2, "analyst@example.com", "x", some "Analyst User", true, 2, 1, 0⟩,
    ⟨3, "client@example.com", "x", some "Client App", true, 3, 1, 0⟩]
  roles := [⟨1, "admin"⟩, ⟨2, "analyst"⟩, ⟨3, "client_app"⟩]
  written := []
  aborted := fun _ => false
  log := []

theorem keyed_seeded : Keyed seeded :=
  ⟨by decide, by decide⟩

def asStored : UserOrder seeded where
  rows := seeded.users
  descending := ⟨.refl _, by decide⟩

/-- All three tie, so a query may also find the first user last. -/
def firstLast : UserOrder seeded where
  rows := seeded.users.tail ++ [seeded.users.head (by decide)]
  descending := ⟨List.perm_append_singleton _ _, by decide⟩

/-- Two users a page: the second page may show a user of the first, and not the third. -/
theorem page_repeats_user :
    ¬ ∀ (w : Accounts) (limit : Nat), Keyed w → 1 ≤ limit → PagesCover w limit := by
  intro h
  let orders : Nat → UserOrder seeded := fun k => if k = 0 then asStored else firstLast
  obtain ⟨users, hread, hperm⟩ := h seeded 2 keyed_seeded (by decide) orders 4 (by decide)
  have hrun : (readUsers seeded orders 2 4).map (List.map fun user => user.row.id) =
      some [1, 2, 1] := by
    decide +kernel
  rw [hread, Option.map_some, Option.some.injEq] at hrun
  have hids := hperm.map UserRow.id
  rw [List.map_map] at hids
  have hnodup : ([1, 2, 1] : List UUID).Nodup := hrun ▸ hids.nodup_iff.mpr keyed_seeded.ids
  exact absurd hnodup (by decide)

theorem user_pages_cover_iff_seeded : PagesCover seeded 3 := by
  refine (user_pages_cover_iff keyed_seeded (by decide)).mpr fun k hsplit => ?_
  have hlast : k * 3 < 3 := hsplit.lt_length
  obtain ⟨row, -, hfirst, -⟩ := hsplit
  omega

end EventAnalytics.Services
