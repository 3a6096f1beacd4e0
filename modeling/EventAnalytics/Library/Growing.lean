import EventAnalytics.Library.Distinct
import Mathlib.Data.List.Infix

/-! Values that are read off a log while it grows: what is read is as old as the moment
of its reading. -/
namespace EventAnalytics.Library

variable {α β : Type}

/-- What `f` gave of the log at a moment between two of its states. -/
def ReadBetween (before after : List α) (f : List α → β) (x : β) : Prop :=
  ∃ log, before <+: log ∧ log <+: after ∧ f log = x

section Reads

variable {before after after' : List α} {f : List α → β} {x : β}

theorem readBetween_now (f : List α → β) (h : before <+: after) :
    ReadBetween before after f (f after) :=
  ⟨after, h, List.prefix_refl _, rfl⟩

theorem ReadBetween.grown (h : ReadBetween before after f x) (hgrown : after <+: after') :
    ReadBetween before after' f x := by
  obtain ⟨log, hbefore, hafter, hx⟩ := h
  exact ⟨log, hbefore, hafter.trans hgrown, hx⟩

theorem ReadBetween.ever (h : ReadBetween before after f x) : ReadBetween [] after f x := by
  obtain ⟨log, -, hafter, hx⟩ := h
  exact ⟨log, List.nil_prefix, hafter, hx⟩

end Reads

/-- Never less of a longer log. -/
def Growing (f : List α → Nat) : Prop :=
  ∀ log more, f log ≤ f (log ++ more)

theorem growing_distinct [DecidableEq β] (g : α → Option β) : Growing (distinct g) := by
  intro log more
  apply Finset.card_le_card
  rw [values_append]
  exact Finset.subset_union_left

theorem Growing.le {f : List α → Nat} (hf : Growing f) {before after : List α}
    (h : before <+: after) : f before ≤ f after := by
  obtain ⟨more, rfl⟩ := h
  exact hf before more

theorem ReadBetween.le {f : List α → Nat} (hf : Growing f) {before after : List α} {n : Nat}
    (h : ReadBetween before after f n) : n ≤ f after := by
  obtain ⟨log, -, hafter, rfl⟩ := h
  exact hf.le hafter

theorem forall₂_le_trans {a b c : List Nat} (hab : List.Forall₂ (· ≤ ·) a b)
    (hbc : List.Forall₂ (· ≤ ·) b c) : List.Forall₂ (· ≤ ·) a c := by
  induction hab generalizing c with
  | nil => exact hbc
  | cons hle _ ih =>
      cases hbc with
      | cons hle' hrest => exact .cons (hle.trans hle') (ih hrest)

end EventAnalytics.Library
