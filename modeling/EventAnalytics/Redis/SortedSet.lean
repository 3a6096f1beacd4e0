import Mathlib.Data.List.Nodup
import Mathlib.Data.Prod.Lex

/-! Redis sorted sets, as far as the rate limiter uses them. -/
namespace EventAnalytics.Redis

structure ZEntry (μ : Type) where
  score : Nat
  member : μ
  deriving DecidableEq, Repr

variable {μ : Type} [LinearOrder μ]

/-- The order of a sorted set: by score, equal scores by member. -/
def ZEntry.before (a b : ZEntry μ) : Prop :=
  a.score < b.score ∨ (a.score = b.score ∧ a.member < b.member)

instance (a b : ZEntry μ) : Decidable (a.before b) :=
  inferInstanceAs (Decidable (_ ∨ _))

theorem ZEntry.before_trans {a b c : ZEntry μ} (hab : a.before b) (hbc : b.before c) :
    a.before c := by
  rcases hab with hab | ⟨hab, hm⟩ <;> rcases hbc with hbc | ⟨hbc, hm'⟩
  · exact .inl (hab.trans hbc)
  · exact .inl (hbc ▸ hab)
  · exact .inl (hab ▸ hbc)
  · exact .inr ⟨hab.trans hbc, hm.trans hm'⟩

theorem ZEntry.before_of_not {a b : ZEntry μ} (hab : ¬ a.before b) (hne : a.member ≠ b.member) :
    b.before a := by
  simp only [ZEntry.before, not_or, not_and, not_lt] at hab
  rcases hab.1.lt_or_eq with hlt | heq
  · exact .inl hlt
  · exact .inr ⟨heq, lt_of_le_of_ne (hab.2 heq.symm) hne.symm⟩

def insertEntry (e : ZEntry μ) : List (ZEntry μ) → List (ZEntry μ)
  | [] => [e]
  | x :: xs => if e.before x then e :: x :: xs else x :: insertEntry e xs

theorem insertEntry_perm (e : ZEntry μ) (xs : List (ZEntry μ)) :
    (insertEntry e xs).Perm (e :: xs) := by
  induction xs with
  | nil => exact .refl _
  | cons x xs ih =>
      unfold insertEntry
      split
      · exact .refl _
      · exact (ih.cons x).trans (.swap e x xs)

theorem insertEntry_sorted {e : ZEntry μ} {xs : List (ZEntry μ)} (hxs : xs.Pairwise ZEntry.before)
    (hne : ∀ x ∈ xs, e.member ≠ x.member) : (insertEntry e xs).Pairwise ZEntry.before := by
  induction xs with
  | nil => simp [insertEntry]
  | cons x xs ih =>
      obtain ⟨hx, hxs⟩ := List.pairwise_cons.mp hxs
      unfold insertEntry
      split
      · rename_i hex
        refine List.pairwise_cons.mpr ⟨fun y hy => ?_, List.pairwise_cons.mpr ⟨hx, hxs⟩⟩
        rcases List.mem_cons.mp hy with rfl | hy
        · exact hex
        · exact ZEntry.before_trans hex (hx y hy)
      · rename_i hex
        refine List.pairwise_cons.mpr
          ⟨fun y hy => ?_, ih hxs fun y hy => hne y (List.mem_cons_of_mem _ hy)⟩
        rcases List.mem_cons.mp ((insertEntry_perm e xs).mem_iff.mp hy) with rfl | hy
        · exact ZEntry.before_of_not hex (hne x List.mem_cons_self)
        · exact hx y hy

/-- A key that holds a sorted set. An empty set is a missing key, for which the
time to live means nothing. -/
structure ZSet (μ : Type) [LinearOrder μ] where
  entries : List (ZEntry μ)
  expireAt : Nat
  sorted : entries.Pairwise ZEntry.before
  distinct : (entries.map ZEntry.member).Nodup

namespace ZSet

def empty : ZSet μ := ⟨[], 0, .nil, .nil⟩

def keepIf (z : ZSet μ) (keep : ZEntry μ → Bool) : ZSet μ where
  entries := z.entries.filter keep
  expireAt := z.expireAt
  sorted := z.sorted.filter _
  distinct := z.distinct.sublist (List.filter_sublist.map _)

/-- The key as a command at time `clock` finds it: PEXPIRE deletes the whole key
once the time to live has passed. -/
def live (clock : Nat) (z : ZSet μ) : ZSet μ :=
  if z.expireAt ≤ clock then empty else z

def zremrangebyscore (z : ZSet μ) (min max : Int) : ZSet μ :=
  z.keepIf fun e => ¬ (min ≤ e.score ∧ (e.score : Int) ≤ max)

def zcard (z : ZSet μ) : Nat := z.entries.length

def zrangeFirst (z : ZSet μ) : Option (ZEntry μ) := z.entries.head?

/-- ZADD: a member that is already there gets the new score. -/
def zadd (z : ZSet μ) (score : Nat) (member : μ) : ZSet μ where
  entries := insertEntry ⟨score, member⟩ (z.entries.filter (·.member ≠ member))
  expireAt := z.expireAt
  sorted := by
    apply insertEntry_sorted (z.sorted.filter _)
    intro x hx
    exact fun heq => by simp [← heq] at hx
  distinct := by
    rw [((insertEntry_perm _ _).map _).nodup_iff, List.map_cons, List.nodup_cons]
    refine ⟨?_, z.distinct.sublist (List.filter_sublist.map _)⟩
    simp

/-- PEXPIRE, as the point in time at which the key goes. -/
def pexpire (z : ZSet μ) (at' : Nat) : ZSet μ := { z with expireAt := at' }

@[simp] theorem entries_empty : (empty : ZSet μ).entries = [] := rfl

@[simp] theorem expireAt_pexpire (z : ZSet μ) (t : Nat) : (z.pexpire t).expireAt = t := rfl

@[simp] theorem expireAt_zremrangebyscore (z : ZSet μ) (min max : Int) :
    (z.zremrangebyscore min max).expireAt = z.expireAt := rfl

theorem zadd_perm {z : ZSet μ} {score : Nat} {member : μ}
    (hnew : ∀ e ∈ z.entries, e.member ≠ member) :
    (z.zadd score member).entries.Perm (⟨score, member⟩ :: z.entries) := by
  apply (insertEntry_perm _ _).trans
  rw [List.filter_eq_self.mpr fun e he => by simpa using hnew e he]

end ZSet

end EventAnalytics.Redis
