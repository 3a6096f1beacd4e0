import Mathlib.Data.List.Pairwise

/-! A store that keeps, under each key, the first item that it is given. Items
given again, in whatever order, change nothing. -/
namespace EventAnalytics.Library

variable {α κ : Type} [DecidableEq κ] {key : α → κ}

def absorb (key : α → κ) : List α → List α → List α
  | store, [] => store
  | store, a :: items =>
    if key a ∈ store.map key then absorb key store items
    else absorb key (store ++ [a]) items

theorem absorb_append (store left right : List α) :
    absorb key store (left ++ right) = absorb key (absorb key store left) right := by
  induction left generalizing store with
  | nil => rfl
  | cons a left ih =>
      simp only [List.cons_append, absorb]
      split <;> exact ih _

theorem absorb_of_known {store items : List α} (h : ∀ a ∈ items, key a ∈ store.map key) :
    absorb key store items = store := by
  induction items with
  | nil => rfl
  | cons a items ih =>
      rw [absorb, if_pos (h a List.mem_cons_self)]
      exact ih fun b hb => h b (List.mem_cons_of_mem a hb)

theorem mem_keys_absorb {store items : List α} {k : κ} :
    k ∈ (absorb key store items).map key ↔ k ∈ store.map key ∨ k ∈ items.map key := by
  induction items generalizing store with
  | nil => simp [absorb]
  | cons a items ih =>
      rw [absorb, List.map_cons, List.mem_cons]
      split
      · rename_i hknown
        rw [ih]
        refine ⟨fun h => h.imp_right .inr, fun h => ?_⟩
        rcases h with h | rfl | h
        · exact .inl h
        · exact .inl hknown
        · exact .inr h
      · rw [ih, List.map_append, List.mem_append, List.map_singleton, List.mem_singleton, or_assoc]

theorem nodup_absorb {store : List α} (h : (store.map key).Nodup) (items : List α) :
    ((absorb key store items).map key).Nodup := by
  induction items generalizing store with
  | nil => exact h
  | cons a items ih =>
      rw [absorb]
      split
      · exact ih h
      · rename_i hnew
        refine ih ?_
        rw [List.map_append, List.nodup_append]
        refine ⟨h, by simp, fun k hk k' hk' heq => hnew ?_⟩
        rw [List.map_singleton, List.mem_singleton] at hk'
        exact hk' ▸ heq ▸ hk

/-- What a store holds was in it before, or is the first item given under its key. -/
theorem mem_absorb {store items : List α} {a : α} (h : a ∈ absorb key store items) :
    a ∈ store ∨ key a ∉ store.map key ∧ ∃ before after, items = before ++ a :: after ∧
      key a ∉ before.map key := by
  induction items generalizing store with
  | nil => exact .inl h
  | cons b items ih =>
      rw [absorb] at h
      split at h
      · rename_i hknown
        rcases ih h with h | ⟨hnew, before, after, rfl, hfirst⟩
        · exact .inl h
        · refine .inr ⟨hnew, b :: before, after, rfl, ?_⟩
          rw [List.map_cons, List.mem_cons, not_or]
          exact ⟨fun heq => hnew (heq ▸ hknown), hfirst⟩
      · rename_i hb
        rcases ih h with h | ⟨hnew, before, after, rfl, hfirst⟩
        · rcases List.mem_append.mp h with h | h
          · exact .inl h
          · rw [List.mem_singleton.mp h]
            exact .inr ⟨hb, [], items, rfl, by simp⟩
        · rw [List.map_append, List.mem_append, not_or] at hnew
          refine .inr ⟨hnew.1, b :: before, after, rfl, ?_⟩
          rw [List.map_cons, List.mem_cons, not_or]
          exact ⟨fun heq => hnew.2 (by simp [heq]), hfirst⟩

theorem mem_absorb_of_mem {store : List α} (items : List α) {a : α} (h : a ∈ store) :
    a ∈ absorb key store items := by
  induction items generalizing store with
  | nil => exact h
  | cons b items ih =>
      rw [absorb]
      split
      · exact ih h
      · exact ih (List.mem_append_left _ h)

theorem mem_absorb_find? {store items : List α} {a : α} (h : a ∈ absorb key store items) :
    a ∈ store ∨ key a ∉ store.map key ∧ items.find? (fun b => key b = key a) = some a := by
  refine (mem_absorb h).imp_right fun ⟨hnew, before, after, hitems, hfirst⟩ => ⟨hnew, ?_⟩
  have hnone : before.find? (fun b => key b = key a) = none := by
    rw [List.find?_eq_none]
    intro b hb hkey
    exact hfirst (List.mem_map.mpr ⟨b, hb, of_decide_eq_true hkey⟩)
  simp [hitems, List.find?_append, hnone]

theorem mem_absorb_of_find? {store items : List α} {k : κ} {a : α} (hnew : k ∉ store.map key)
    (hfirst : items.find? (fun b => key b = k) = some a) : a ∈ absorb key store items := by
  have hkey : key a = k := by simpa using List.find?_some hfirst
  have hknown : k ∈ (absorb key store items).map key :=
    mem_keys_absorb.mpr (.inr (List.mem_map.mpr ⟨a, List.mem_of_find?_eq_some hfirst, hkey⟩))
  obtain ⟨b, hb, rfl⟩ := List.mem_map.mp hknown
  rcases mem_absorb_find? hb with hold | ⟨-, hfind⟩
  · exact absurd (List.mem_map_of_mem hold) hnew
  · rwa [Option.some.inj (hfirst.symm.trans hfind)]

end EventAnalytics.Library
