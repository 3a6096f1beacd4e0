import EventAnalytics.Library.Lookup

/-! The identity map of a session: the objects that it holds, at most one for each key.
An object that is there stands for every row with its key that is read later. -/
namespace EventAnalytics.Library

structure IdentityMap {κ α : Type} (key : α → κ) where
  objects : List α
  distinct : (objects.map key).Nodup

namespace IdentityMap

variable {κ α : Type} [DecidableEq κ] {key : α → κ}

def empty : IdentityMap key := ⟨[], List.nodup_nil⟩

def get? (m : IdentityMap key) (k : κ) : Option α :=
  m.objects.find? fun x => key x = k

/-- The object for a row that has been read as `fresh`. -/
def object (m : IdentityMap key) (fresh : α) : α := (m.get? (key fresh)).getD fresh

theorem get?_eq_none_iff {m : IdentityMap key} {k : κ} :
    m.get? k = none ↔ k ∉ m.objects.map key := by
  rw [get?, List.find?_eq_none, List.mem_map]
  simp

theorem key_of_get? {m : IdentityMap key} {k : κ} {x : α} (h : m.get? k = some x) : key x = k := by
  simpa using List.find?_some h

theorem mem_of_get? {m : IdentityMap key} {k : κ} {x : α} (h : m.get? k = some x) :
    x ∈ m.objects :=
  List.mem_of_find?_eq_some h

theorem key_object (m : IdentityMap key) (fresh : α) : key (m.object fresh) = key fresh := by
  unfold object
  cases hget : m.get? (key fresh) with
  | none => rfl
  | some x => exact key_of_get? hget

/-- A row that is read for the first time adds its object. -/
def merge (m : IdentityMap key) (fresh : α) : IdentityMap key :=
  if h : m.get? (key fresh) = none then
    ⟨m.objects ++ [fresh], by
      rw [List.map_append, List.map_singleton, List.nodup_append]
      refine ⟨m.distinct, List.nodup_singleton _, fun k hk k' hk' => ?_⟩
      rw [List.mem_singleton.mp hk']
      rintro rfl
      exact get?_eq_none_iff.mp h hk⟩
  else m

/-- The objects change in place, and keep their keys. -/
def modify (m : IdentityMap key) (f : α → α) (hf : ∀ x, key (f x) = key x) : IdentityMap key :=
  ⟨m.objects.map f, by
    have hkeys : key ∘ f = key := funext hf
    rw [List.map_map, hkeys]
    exact m.distinct⟩

@[simp] theorem get?_merge_self (m : IdentityMap key) (fresh : α) :
    (m.merge fresh).get? (key fresh) = some (m.object fresh) := by
  unfold merge object
  split
  · rename_i hnone
    rw [hnone, Option.getD_none]
    rw [get?, List.find?_eq_none] at hnone
    exact find?_append_new (by simpa using hnone) rfl
  · rename_i hsome
    obtain ⟨x, hget⟩ := Option.ne_none_iff_exists'.mp hsome
    rw [hget, Option.getD_some]

@[simp] theorem get?_modify (m : IdentityMap key) (f : α → α) (hf : ∀ x, key (f x) = key x)
    (k : κ) : (m.modify f hf).get? k = (m.get? k).map f := by
  unfold modify get?
  rw [List.find?_map]
  congr 2
  funext x
  simp [hf]

theorem mem_merge {m : IdentityMap key} {fresh x : α} (h : x ∈ (m.merge fresh).objects) :
    x ∈ m.objects ∨ x = fresh := by
  unfold merge at h
  split at h
  · rcases List.mem_append.mp h with h | h
    · exact .inl h
    · exact .inr (List.mem_singleton.mp h)
  · exact .inl h

end IdentityMap

end EventAnalytics.Library
