import Mathlib.Data.List.Forall2
import Mathlib.Data.List.Infix

/-! Replacing the matches of a pattern in a text, leftmost first and without
overlap, for patterns that are a row of character classes and a greedy run. -/
namespace EventAnalytics.Library

variable {α : Type}

/-- `s` begins with one character of each class, in their order. -/
def begins : List (α → Bool) → List α → Bool
  | [], _ => true
  | _ :: _, [] => false
  | p :: ps, c :: s => p c && begins ps s

/-- `s` begins so as far as it goes. -/
def fits : List (α → Bool) → List α → Bool
  | p :: ps, c :: s => p c && fits ps s
  | _, _ => true

/-- `u` is one character of each class, in their order. -/
def Spells (ps : List (α → Bool)) (u : List α) : Prop :=
  List.Forall₂ (fun p c => p c = true) ps u

/-- One character of each class, and then as many of the class `more` as follow. -/
structure Pattern (α : Type) where
  classes : List (α → Bool)
  more : α → Bool
  nonempty : classes ≠ []

namespace Pattern

variable (r : Pattern α) (text : List α)

def extent (s : List α) : Nat :=
  r.classes.length + ((s.drop r.classes.length).takeWhile r.more).length

/-- What follows the match that `s` begins with. -/
def rest (s : List α) : List α :=
  (s.drop r.classes.length).dropWhile r.more

/-- `replace`, with `skip` characters of a match still to pass over. -/
def replaceAfter : Nat → List α → List α
  | _, [] => []
  | skip + 1, _ :: s => replaceAfter skip s
  | 0, c :: s =>
    if begins r.classes (c :: s) then text ++ replaceAfter (r.extent (c :: s) - 1) s
    else c :: replaceAfter 0 s

/-- Every match is replaced by `text`. -/
def replace (s : List α) : List α :=
  r.replaceAfter text 0 s

end Pattern

section Spells

variable {p : α → Bool} {ps qs : List (α → Bool)} {u : List α}

@[simp] theorem spells_nil : Spells [] u ↔ u = [] :=
  List.forall₂_nil_left_iff

theorem spells_cons : Spells (p :: ps) u ↔ ∃ c v, u = c :: v ∧ p c = true ∧ Spells ps v := by
  unfold Spells
  rw [List.forall₂_cons_left_iff]
  constructor
  · rintro ⟨c, v, hc, hv, hu⟩
    exact ⟨c, v, hu, hc, hv⟩
  · rintro ⟨c, v, hu, hc, hv⟩
    exact ⟨c, v, hc, hv, hu⟩

theorem spells_append :
    Spells (ps ++ qs) u ↔ ∃ v w, u = v ++ w ∧ Spells ps v ∧ Spells qs w := by
  induction ps generalizing u with
  | nil => simp
  | cons p ps ih =>
    simp only [List.cons_append, spells_cons, ih]
    constructor
    · rintro ⟨c, _, rfl, hc, v, w, rfl, hv, hw⟩
      exact ⟨c :: v, w, rfl, ⟨c, v, rfl, hc, hv⟩, hw⟩
    · rintro ⟨_, w, rfl, ⟨c, v, rfl, hc, hv⟩, hw⟩
      exact ⟨c, v ++ w, rfl, hc, v, w, rfl, hv, hw⟩

theorem spells_replicate {n : Nat} :
    Spells (List.replicate n p) u ↔ u.length = n ∧ ∀ c ∈ u, p c = true := by
  induction n generalizing u with
  | zero => simp +contextual [List.length_eq_zero_iff]
  | succ n ih =>
    rw [List.replicate_succ, spells_cons]
    cases u with
    | nil => simp
    | cons c u => simp [ih, and_left_comm]

end Spells

section Begins

variable {p : α → Bool} {ps : List (α → Bool)} {c : α} {s t u : List α}

@[simp] theorem begins_nil : begins [] s = true := by
  cases s <;> rfl

@[simp] theorem begins_cons : begins (p :: ps) (c :: s) = (p c && begins ps s) := rfl

theorem begins_append (h : begins ps s = true) : begins ps (s ++ t) = true := by
  induction ps generalizing s with
  | nil => exact begins_nil
  | cons p ps ih =>
    cases s with
    | nil => cases h
    | cons c s =>
      rw [begins_cons, Bool.and_eq_true] at h
      rw [List.cons_append, begins_cons, h.1, ih h.2]
      rfl

theorem length_le_of_begins (h : begins ps s = true) : ps.length ≤ s.length := by
  induction ps generalizing s with
  | nil => exact Nat.zero_le _
  | cons p ps ih =>
    cases s with
    | nil => cases h
    | cons c s =>
      rw [begins_cons, Bool.and_eq_true] at h
      exact Nat.succ_le_succ (ih h.2)

theorem begins_iff :
    begins ps s = true ↔ ∃ u t, s = u ++ t ∧ Spells ps u := by
  induction ps generalizing s with
  | nil => simp
  | cons p ps ih =>
    cases s with
    | nil => simp [begins, spells_cons]
    | cons c s =>
      simp only [begins_cons, Bool.and_eq_true, ih, spells_cons]
      constructor
      · intro h
        obtain ⟨hc, u, t, rfl, hspells⟩ := h
        exact ⟨c :: u, t, rfl, c, u, rfl, hc, hspells⟩
      · intro h
        obtain ⟨_, t, hs, d, u, rfl, hd, hspells⟩ := h
        rw [List.cons_append, List.cons.injEq] at hs
        exact ⟨hs.1 ▸ hd, u, t, hs.2, hspells⟩

theorem fits_of_begins (h : begins ps (u ++ s) = true) : fits ps u = true := by
  induction ps generalizing u with
  | nil => cases u <;> rfl
  | cons p ps ih =>
    cases u with
    | nil => rfl
    | cons c u =>
      rw [List.cons_append, begins_cons, Bool.and_eq_true] at h
      rw [fits, h.1, ih h.2]
      rfl

end Begins

def Occurs (ps : List (α → Bool)) (s : List α) : Prop :=
  ∃ t, t <:+ s ∧ begins ps t = true

section Occurs

variable {ps : List (α → Bool)} {s t : List α}

theorem Occurs.of_suffix (hsuffix : t <:+ s) (h : Occurs ps t) : Occurs ps s := by
  obtain ⟨u, hu, hbegins⟩ := h
  exact ⟨u, hu.trans hsuffix, hbegins⟩

theorem begins_of_not_occurs (h : ¬ Occurs ps s) : begins ps s = false := by
  apply eq_false_of_ne_true
  intro hbegins
  exact h ⟨s, List.suffix_rfl, hbegins⟩

theorem Occurs.of_take {n : Nat} (h : Occurs ps (s.take n)) : Occurs ps s := by
  obtain ⟨u, ⟨before, hu⟩, hbegins⟩ := h
  refine ⟨u ++ s.drop n, ⟨before, ?_⟩, begins_append hbegins⟩
  rw [← List.append_assoc, hu, List.take_append_drop]

theorem occurs_iff :
    Occurs ps s ↔ ∃ u, Spells ps u ∧ u <:+: s := by
  constructor
  · intro h
    obtain ⟨t, ⟨before, ht⟩, hbegins⟩ := h
    obtain ⟨u, v, hsplit, hspells⟩ := begins_iff.mp hbegins
    refine ⟨u, hspells, before, v, ?_⟩
    rw [List.append_assoc, ← hsplit, ht]
  · intro h
    obtain ⟨u, hspells, before, v, hs⟩ := h
    refine ⟨u ++ v, ⟨before, ?_⟩, begins_iff.mpr ⟨u, v, rfl, hspells⟩⟩
    rw [← List.append_assoc, hs]

end Occurs

namespace Pattern

section Scan

variable {r : Pattern α} {text : List α} {c : α} {s t : List α}

theorem begins_nil_eq_false : begins r.classes [] = false := by
  cases h : r.classes with
  | nil => exact absurd h r.nonempty
  | cons p ps => rfl

theorem rest_suffix : r.rest s <:+ s :=
  (List.dropWhile_suffix _).trans (List.drop_suffix _ _)

theorem rest_length (h : begins r.classes s = true) :
    (r.rest s).length + r.classes.length ≤ s.length := by
  have hle := length_le_of_begins h
  have hrest := (List.dropWhile_suffix (l := s.drop r.classes.length) r.more).length_le
  rw [List.length_drop] at hrest
  unfold rest
  omega

theorem rest_length_lt (h : begins r.classes s = true) : (r.rest s).length < s.length := by
  have hpos := List.length_pos_iff.mpr r.nonempty
  have hrest := rest_length h
  omega

theorem drop_extent : s.drop (r.extent s) = r.rest s := by
  have hrun (u : List α) : u.drop (u.takeWhile r.more).length = u.dropWhile r.more := by
    calc u.drop (u.takeWhile r.more).length
        = (u.takeWhile r.more ++ u.dropWhile r.more).drop (u.takeWhile r.more).length := by
          rw [List.takeWhile_append_dropWhile]
      _ = u.dropWhile r.more := List.drop_left
  rw [extent, ← List.drop_drop, hrun, rest]

theorem replaceAfter_eq (skip : Nat) :
    r.replaceAfter text skip s = r.replace text (s.drop skip) := by
  induction s generalizing skip with
  | nil => cases skip <;> rfl
  | cons c s ih =>
    cases skip with
    | zero => rfl
    | succ skip => exact ih skip

@[simp] theorem replace_nil : r.replace text [] = [] := rfl

theorem replace_skip (h : begins r.classes (c :: s) = false) :
    r.replace text (c :: s) = c :: r.replace text s := by
  rw [replace, replaceAfter, h]
  rfl

theorem replace_match (h : begins r.classes s = true) :
    r.replace text s = text ++ r.replace text (r.rest s) := by
  cases s with
  | nil => rw [begins_nil_eq_false] at h; cases h
  | cons c s =>
    have hpos := List.length_pos_iff.mpr r.nonempty
    have hdrop : s.drop (r.extent (c :: s) - 1) = r.rest (c :: s) := by
      rw [← drop_extent, ← List.drop_succ_cons (a := c), Nat.sub_add_cancel]
      unfold extent
      omega
    rw [replace, replaceAfter, if_pos h, replaceAfter_eq, hdrop]

/-- The induction along the scan: the text is empty, its first character begins
no match and is passed over, or a match begins it. -/
@[elab_as_elim] theorem scan {motive : List α → Prop} (r : Pattern α) (nil : motive [])
    (skip : ∀ c s, begins r.classes (c :: s) = false → motive s → motive (c :: s))
    (hit : ∀ s, begins r.classes s = true → motive (r.rest s) → motive s) (s : List α) :
    motive s := by
  induction hn : s.length using Nat.strong_induction_on generalizing s with
  | _ n ih =>
    subst hn
    cases s with
    | nil => exact nil
    | cons c s =>
      cases hbegins : begins r.classes (c :: s) with
      | true => exact hit _ hbegins (ih _ (rest_length_lt hbegins) _ rfl)
      | false => exact skip c s hbegins (ih _ (Nat.lt_succ_self _) s rfl)

theorem replace_eq_self (h : ¬ Occurs r.classes s) : r.replace text s = s := by
  induction s with
  | nil => rfl
  | cons c s ih =>
    rw [replace_skip (begins_of_not_occurs h), ih]
    intro hoccurs
    exact h (hoccurs.of_suffix (List.suffix_cons c s))

end Scan

section Run

variable {r : Pattern α} {text : List α} {p : α → Bool} {c : α} {s : List α}

end Run

/-- A match of the classes can neither run into the text nor begin in it. -/
structure Foreign (ps : List (α → Bool)) (text : List α) : Prop where
  head : ∃ c u, text = c :: u ∧ ∀ p ∈ ps.tail, p c = false
  suffixes : ∀ u ∈ text.tails, u = [] ∨ fits ps u = false

section Foreign

variable {r : Pattern α} {text : List α} {ps : List (α → Bool)} {c : α} {s t u : List α}

theorem Foreign.not_begins (h : Foreign ps text) (hu : u <:+ text) (hne : u ≠ []) :
    begins ps (u ++ s) = false := by
  apply eq_false_of_ne_true
  intro hbegins
  have hfits := fits_of_begins hbegins
  cases h.suffixes u ((List.mem_tails u text).mpr hu) with
  | inl hnil => exact hne hnil
  | inr hfalse =>
    rw [hfalse] at hfits
    cases hfits

/-- As far as classes that the text's first character is in none of can see, a
replaced text begins like the text itself. -/
theorem begins_of_replace (hhead : ∃ d v, text = d :: v ∧ ∀ p ∈ ps, p d = false)
    (h : begins ps (r.replace text s) = true) : begins ps s = true := by
  obtain ⟨d, v, htext, hps⟩ := hhead
  induction ps generalizing s with
  | nil => exact begins_nil
  | cons p ps ih =>
    cases hmatch : begins r.classes s with
    | true =>
      rw [replace_match hmatch, htext, List.cons_append, begins_cons,
        hps p List.mem_cons_self] at h
      cases h
    | false =>
      cases s with
      | nil => exact h
      | cons c s =>
        rw [replace_skip hmatch, begins_cons, Bool.and_eq_true] at h
        rw [begins_cons, h.1, ih h.2 fun q hq => hps q (List.mem_cons_of_mem p hq)]
        rfl

theorem begins_suffix_of_replace (hforeign : Foreign ps text) (hps : ps ≠ [])
    (hsuffix : t <:+ r.replace text s) (h : begins ps t = true) :
    ∃ u, u <:+ s ∧ begins ps u = true ∧ begins r.classes u = false := by
  induction s using scan r with
  | nil =>
    rw [replace_nil, List.suffix_nil] at hsuffix
    subst hsuffix
    cases ps with
    | nil => exact absurd rfl hps
    | cons p ps => cases h
  | skip c s hskip ih =>
    rw [replace_skip hskip, List.suffix_cons_iff] at hsuffix
    cases hsuffix with
    | inl heq =>
      subst heq
      refine ⟨c :: s, List.suffix_rfl, ?_, hskip⟩
      obtain ⟨p, ps, rfl⟩ := List.exists_cons_of_ne_nil hps
      have hhead := hforeign.head
      rw [List.tail_cons] at hhead
      rw [begins_cons, Bool.and_eq_true] at h
      rw [begins_cons, h.1, begins_of_replace hhead h.2]
      rfl
    | inr htail =>
      obtain ⟨u, hu, hbegins, hnone⟩ := ih htail
      exact ⟨u, hu.trans (List.suffix_cons c s), hbegins, hnone⟩
  | hit s hmatch ih =>
    rw [replace_match hmatch] at hsuffix
    obtain ⟨before, hbefore⟩ := hsuffix
    obtain ⟨v, hv, ht⟩ | ⟨v, hv, ht⟩ := List.append_eq_append_iff.mp hbefore
    · cases v with
      | nil =>
        obtain ⟨u, hu, hbegins, hnone⟩ := ih ⟨[], by rw [ht]; rfl⟩
        exact ⟨u, hu.trans rest_suffix, hbegins, hnone⟩
      | cons d v =>
        rw [ht, hforeign.not_begins ⟨before, hv.symm⟩ (List.cons_ne_nil d v)] at h
        cases h
    · obtain ⟨u, hu, hbegins, hnone⟩ := ih ⟨v, ht.symm⟩
      exact ⟨u, hu.trans rest_suffix, hbegins, hnone⟩

/-- Replacing the matches of one pattern makes no occurrence of another. -/
theorem occurs_of_replace (hforeign : Foreign ps text) (hps : ps ≠ [])
    (h : Occurs ps (r.replace text s)) : Occurs ps s := by
  obtain ⟨t, ht, hbegins⟩ := h
  obtain ⟨u, hu, hu', -⟩ := begins_suffix_of_replace hforeign hps ht hbegins
  exact ⟨u, hu, hu'⟩

theorem not_occurs_replace (hforeign : Foreign r.classes text) :
    ¬ Occurs r.classes (r.replace text s) := by
  rintro ⟨t, ht, hbegins⟩
  obtain ⟨u, -, hmatch, hnone⟩ := begins_suffix_of_replace hforeign r.nonempty ht hbegins
  rw [hmatch] at hnone
  cases hnone

end Foreign

/-- Two texts have the same first `n` characters when a match is read as `text`. -/
inductive Alike (r : Pattern α) (text : List α) : Nat → List α → List α → Prop
  | cut (s s' : List α) : Alike r text 0 s s'
  | nil (n : Nat) : Alike r text n [] []
  | char (c : α) {n : Nat} {s s' : List α} : begins r.classes (c :: s) = false →
      begins r.classes (c :: s') = false → Alike r text n s s' →
      Alike r text (n + 1) (c :: s) (c :: s')
  | left {n : Nat} {s s' : List α} : begins r.classes s = true →
      Alike r text n (text ++ r.rest s) s' → Alike r text n s s'
  | right {n : Nat} {s s' : List α} : begins r.classes s' = true →
      Alike r text n s (text ++ r.rest s') → Alike r text n s s'

section Alike

variable {r : Pattern α} {text : List α} {n : Nat} {s s' : List α}

end Alike

end Pattern

end EventAnalytics.Library
