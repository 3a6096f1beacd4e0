import Mathlib.Logic.Relation
import Mathlib.Order.Basic

/-! Waiting for resources. Parties that take resources in ascending order do not wait
in a circle. -/
namespace EventAnalytics.Library

variable {α κ : Type}

/-- `i` wants a resource that `j` holds. -/
def WaitsFor (wants holds : α → κ → Prop) (i j : α) : Prop :=
  i ≠ j ∧ ∃ k, wants i k ∧ holds j k

/-- Whoever wants a resource holds only smaller ones. -/
def Ascending [LT κ] (wants holds : α → κ → Prop) : Prop :=
  ∀ i k, wants i k → ∀ k', holds i k' → k' < k

theorem Ascending.chain [Preorder κ] {wants holds : α → κ → Prop}
    (hasc : Ascending wants holds) {i j : α}
    (hchain : Relation.TransGen (WaitsFor wants holds) i j) :
    ∃ k k', wants i k ∧ holds j k' ∧ k ≤ k' := by
  induction hchain with
  | single hwait =>
      obtain ⟨-, k, hwants, hholds⟩ := hwait
      exact ⟨k, k, hwants, hholds, le_rfl⟩
  | tail _ hwait ih =>
      obtain ⟨k, k', hwants, hholds, hle⟩ := ih
      obtain ⟨-, k'', hwants', hholds'⟩ := hwait
      exact ⟨k, k'', hwants, hholds', hle.trans (hasc _ _ hwants' _ hholds).le⟩

theorem Ascending.acyclic [Preorder κ] {wants holds : α → κ → Prop}
    (hasc : Ascending wants holds) (i : α) :
    ¬ Relation.TransGen (WaitsFor wants holds) i i := by
  intro hcycle
  obtain ⟨k, k', hwants, hholds, hle⟩ := hasc.chain hcycle
  exact (hasc i k hwants k' hholds).not_ge hle

end EventAnalytics.Library
