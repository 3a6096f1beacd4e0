import Mathlib.Algebra.BigOperators.Finprod
import Mathlib.Algebra.Order.BigOperators.Group.Finset
import Mathlib.Data.Finset.Card
import Mathlib.Data.Finset.Dedup

/-! Distinct counts over a log that only grows: `COUNT(DISTINCT ...)` of what a
partial function reads off the entries. -/
namespace EventAnalytics.Library

variable {α β : Type} [DecidableEq β]

def values (g : α → Option β) (log : List α) : Finset β :=
  (log.filterMap g).toFinset

def distinct (g : α → Option β) (log : List α) : Nat :=
  (values g log).card

theorem mem_values {g : α → Option β} {log : List α} {b : β} :
    b ∈ values g log ↔ ∃ a ∈ log, g a = some b := by
  simp [values]

theorem values_append (g : α → Option β) (left right : List α) :
    values g (left ++ right) = values g left ∪ values g right := by
  simp [values, List.filterMap_append]

theorem distinct_congr {g : α → Option β} {log log' : List α}
    (h : ∀ a ∈ log, ∃ a' ∈ log', g a' = g a) (h' : ∀ a ∈ log', ∃ a' ∈ log, g a' = g a) :
    distinct g log = distinct g log' := by
  have hsub : ∀ {l l' : List α}, (∀ a ∈ l, ∃ a' ∈ l', g a' = g a) → values g l ⊆ values g l' := by
    intro l l' hl b hb
    obtain ⟨a, ha, hg⟩ := mem_values.mp hb
    obtain ⟨a', ha', hg'⟩ := hl a ha
    exact mem_values.mpr ⟨a', ha', hg'.trans hg⟩
  exact congrArg Finset.card (Finset.Subset.antisymm (hsub h) (hsub h'))

theorem distinct_mono {g g' : α → Option β} {log : List α}
    (h : ∀ a ∈ log, ∀ b, g a = some b → g' a = some b) : distinct g log ≤ distinct g' log := by
  apply Finset.card_le_card
  intro b hb
  obtain ⟨a, ha, hg⟩ := mem_values.mp hb
  exact mem_values.mpr ⟨a, ha, h a ha b hg⟩

theorem distinct_le_sum {ι : Type} [DecidableEq ι] {g : α → Option β} {log : List α}
    (s : Finset ι) (G : ι → α → Option β)
    (h : ∀ a ∈ log, ∀ b, g a = some b → ∃ i ∈ s, G i a = some b) :
    distinct g log ≤ ∑ i ∈ s, distinct (G i) log := by
  have hsub : values g log ⊆ s.biUnion fun i => values (G i) log := by
    intro b hb
    obtain ⟨a, ha, hg⟩ := mem_values.mp hb
    obtain ⟨i, hi, hG⟩ := h a ha b hg
    exact Finset.mem_biUnion.mpr ⟨i, hi, mem_values.mpr ⟨a, ha, hG⟩⟩
  exact (Finset.card_le_card hsub).trans Finset.card_biUnion_le

omit [DecidableEq β] in
/-- A set is split by the classes of its members, whatever classes there are. -/
theorem finsum_card_fibers {ι : Type} [DecidableEq ι] (s : Finset β) (f : β → ι) :
    ∑ᶠ i, (s.filter fun b => f b = i).card = s.card := by
  have hsupport : (Function.support fun i => (s.filter fun b => f b = i).card) ⊆
      (s.image f : Set ι) := by
    intro i hi
    obtain ⟨b, hb⟩ := Finset.card_ne_zero.mp hi
    obtain ⟨hs, hf⟩ := Finset.mem_filter.mp hb
    exact Finset.mem_coe.mpr (Finset.mem_image.mpr ⟨b, hs, hf⟩)
  rw [finsum_eq_sum_of_support_subset _ hsupport]
  exact (Finset.card_eq_sum_card_fiberwise fun b hb => Finset.mem_image_of_mem f hb).symm

/-- The count of a prefix is the count of the log exactly when the rest brings no
new value. -/
theorem distinct_append_iff (g : α → Option β) (left right : List α) :
    distinct g left = distinct g (left ++ right) ↔
      ∀ a ∈ right, ∀ b, g a = some b → b ∈ values g left := by
  have hsub : values g left ⊆ values g (left ++ right) := by
    rw [values_append]
    exact Finset.subset_union_left
  constructor
  · intro heq a ha b hb
    have hall : values g left = values g (left ++ right) :=
      Finset.eq_of_subset_of_card_le hsub heq.ge
    rw [hall, mem_values]
    exact ⟨a, List.mem_append_right _ ha, hb⟩
  · intro hnew
    refine congrArg Finset.card (Finset.Subset.antisymm hsub fun b hb => ?_)
    rw [values_append, Finset.mem_union] at hb
    rcases hb with hb | hb
    · exact hb
    · obtain ⟨a, ha, hg⟩ := mem_values.mp hb
      exact hnew a ha b hg

end EventAnalytics.Library
