import Mathlib.Data.List.Nodup

/-! Rows that are looked up in a list. -/
namespace EventAnalytics.Library

section Lookup

variable {α : Type} {p : α → Prop} [DecidablePred p] {rows : List α} {row : α}

theorem exists_find?_iff :
    (∃ row, rows.find? (fun row => p row) = some row) ↔ ∃ row ∈ rows, p row := by
  rw [← Option.isSome_iff_exists, List.find?_isSome]
  simp

theorem find?_append_new (hnone : ∀ row ∈ rows, ¬ p row) (hnew : p row) :
    (rows ++ [row]).find? (fun row => p row) = some row := by
  have hbefore : rows.find? (fun row => p row) = none := by
    rw [List.find?_eq_none]
    simpa using hnone
  rw [List.find?_append, hbefore, Option.none_or]
  exact List.find?_cons_of_pos (decide_eq_true hnew)

theorem find?_of_nodup {κ : Type} [DecidableEq κ] {key : α → κ} (hkeys : (rows.map key).Nodup)
    (hrow : row ∈ rows) : rows.find? (fun other => key other = key row) = some row := by
  obtain ⟨other, hother⟩ :=
    exists_find?_iff (p := fun other => key other = key row).mpr ⟨row, hrow, rfl⟩
  have hkey : key other = key row := by simpa using List.find?_some hother
  rw [hother, List.inj_on_of_nodup_map hkeys (List.mem_of_find?_eq_some hother) hrow hkey]

theorem filter_of_nodup {κ : Type} [DecidableEq κ] {key : α → κ} (hkeys : (rows.map key).Nodup)
    (k : κ) : rows.filter (fun row => key row = k) =
      (rows.find? fun row => key row = k).toList := by
  induction rows with
  | nil => rfl
  | cons row rows ih =>
      obtain ⟨hnew, hkeys⟩ := List.nodup_cons.mp hkeys
      by_cases hrow : key row = k
      · have hnone : rows.filter (fun row => key row = k) = [] := by
          apply List.filter_eq_nil_iff.mpr
          intro other hother hk
          have hsame : key other = key row := (of_decide_eq_true hk).trans hrow.symm
          exact hnew (hsame ▸ List.mem_map_of_mem hother)
        simp [hrow, hnone]
      · simp [hrow, ih hkeys]

end Lookup

end EventAnalytics.Library
