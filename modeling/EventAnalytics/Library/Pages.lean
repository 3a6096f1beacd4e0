import Mathlib.Data.List.Perm.Basic
import Mathlib.Data.List.Sort

/-! A table that is read page by page, in the order of a key. Each page is a query of its
own, and rows that tie may come in another order each time. -/
namespace EventAnalytics.Library

section Prefix

variable {α : Type} {P : α → Bool} {l : List α}

theorem take_countP (h : l.Pairwise fun a b => P b = true → P a = true) :
    l.take (l.countP P) = l.filter P := by
  induction l with
  | nil => rfl
  | cons a l ih =>
      obtain ⟨hhead, htail⟩ := List.pairwise_cons.mp h
      by_cases ha : P a = true
      · rw [List.countP_cons_of_pos ha, List.take_succ_cons, List.filter_cons_of_pos ha, ih htail]
      · have hnone : ∀ b ∈ l, ¬ P b = true := fun b hb hP => ha (hhead b hb hP)
        rw [List.countP_cons_of_neg ha, List.countP_eq_zero.mpr hnone, List.filter_cons_of_neg ha,
          List.filter_eq_nil_iff.mpr hnone, List.take_zero]

theorem getElem_countP (h : l.Pairwise fun a b => P b = true → P a = true) {i : Nat}
    (hi : i < l.length) : P l[i] = true ↔ i < l.countP P := by
  induction l generalizing i with
  | nil => simp at hi
  | cons a l ih =>
      obtain ⟨hhead, htail⟩ := List.pairwise_cons.mp h
      by_cases ha : P a = true
      · rw [List.countP_cons_of_pos ha]
        cases i with
        | zero => simp [ha]
        | succ i =>
            rw [List.getElem_cons_succ, ih htail (Nat.lt_of_succ_lt_succ hi)]
            omega
      · have hnone : ∀ b ∈ l, ¬ P b = true := fun b hb hP => ha (hhead b hb hP)
        rw [List.countP_cons_of_neg ha, List.countP_eq_zero.mpr hnone]
        cases i with
        | zero => simp [ha]
        | succ i =>
            rw [List.getElem_cons_succ]
            simp [hnone _ (List.getElem_mem (Nat.lt_of_succ_lt_succ hi))]

end Prefix

section Reading

variable {α : Type}

/-- `LIMIT limit OFFSET offset`. -/
def page (rows : List α) (limit offset : Nat) : List α := (rows.drop offset).take limit

/-- The pages from number `k` on, up to the first that is empty. -/
def readUntilEmpty (pages : Nat → List α) : Nat → Nat → Option (List α)
  | 0, _ => none
  | fuel + 1, k =>
    if (pages k).isEmpty then some []
    else (readUntilEmpty pages fuel (k + 1)).map fun rest => pages k ++ rest

theorem readUntilEmpty_eq {pages : Nat → List α} {count : Nat}
    (hpages : ∀ k, pages k = [] ↔ count ≤ k) {fuel k : Nat} (hk : k ≤ count)
    (hfuel : count < k + fuel) :
    readUntilEmpty pages fuel k = some ((List.range' k (count - k)).flatMap pages) := by
  induction fuel generalizing k with
  | zero => omega
  | succ fuel ih =>
      rw [readUntilEmpty]
      by_cases hlast : count ≤ k
      · have hzero : count - k = 0 := by omega
        rw [if_pos (List.isEmpty_iff.mpr ((hpages k).mpr hlast)), hzero]
        rfl
      · have hsucc : count - k = count - (k + 1) + 1 := by omega
        have hfull : ¬ (pages k).isEmpty = true := by
          rw [List.isEmpty_iff, hpages k]
          exact hlast
        rw [if_neg hfull, ih (by omega) (by omega), hsucc, List.range'_succ]
        rfl

def pageCount (n limit : Nat) : Nat := (n + limit - 1) / limit

theorem pageCount_le_iff {n limit k : Nat} (hlimit : 1 ≤ limit) :
    pageCount n limit ≤ k ↔ n ≤ k * limit := by
  rw [pageCount, Nat.div_le_iff_le_mul_add_pred hlimit, Nat.mul_comm]
  omega

theorem page_eq_nil_iff {rows : List α} {limit offset : Nat} (hlimit : 1 ≤ limit) :
    page rows limit offset = [] ↔ rows.length ≤ offset := by
  rw [page, List.take_eq_nil_iff, List.drop_eq_nil_iff]
  omega

theorem page_drop (rows : List α) (limit offset start : Nat) :
    page (rows.drop start) limit offset = page rows limit (start + offset) := by
  rw [page, List.drop_drop, page]

theorem flatMap_page (rows : List α) (limit count : Nat) :
    (List.range count).flatMap (fun k => page rows limit (k * limit)) =
      rows.take (count * limit) := by
  induction count with
  | zero => simp
  | succ count ih =>
      rw [List.range_succ, List.flatMap_append, ih, List.flatMap_singleton, Nat.succ_mul,
        List.take_add, page]

end Reading

section Order

variable {α ι : Type} [LinearOrder ι] {key : α → ι} {table rows other : List α} {p : Nat}

/-- `rows` is `table` in an order that `ORDER BY key DESC` allows. -/
structure Descending (key : α → ι) (table rows : List α) : Prop where
  perm : rows.Perm table
  sorted : rows.Pairwise fun a b => key b ≤ key a

def above (key : α → ι) (t : ι) (table : List α) : Nat := table.countP fun a => t < key a

def atLeast (key : α → ι) (t : ι) (table : List α) : Nat := table.countP fun a => t ≤ key a

/-- Position `p` is inside the group of the rows that tie with some row. -/
def Splits (key : α → ι) (table : List α) (p : Nat) : Prop :=
  ∃ a ∈ table, above key (key a) table < p ∧ p < atLeast key (key a) table

theorem Descending.length_eq (h : Descending key table rows) : rows.length = table.length :=
  h.perm.length_eq

theorem Descending.prefix_above (h : Descending key table rows) (t : ι) :
    rows.Pairwise fun a b => decide (t < key b) = true → decide (t < key a) = true := by
  apply h.sorted.imp
  intro a b hab hb
  exact decide_eq_true (lt_of_lt_of_le (of_decide_eq_true hb) hab)

theorem Descending.prefix_atLeast (h : Descending key table rows) (t : ι) :
    rows.Pairwise fun a b => decide (t ≤ key b) = true → decide (t ≤ key a) = true := by
  apply h.sorted.imp
  intro a b hab hb
  exact decide_eq_true (le_trans (of_decide_eq_true hb) hab)

theorem Descending.lt_key_iff (h : Descending key table rows) {i : Nat} (hi : i < rows.length)
    (t : ι) : t < key rows[i] ↔ i < above key t table := by
  rw [above, ← h.perm.countP_eq, ← getElem_countP (h.prefix_above t) hi, decide_eq_true_iff]

theorem Descending.le_key_iff (h : Descending key table rows) {i : Nat} (hi : i < rows.length)
    (t : ι) : t ≤ key rows[i] ↔ i < atLeast key t table := by
  rw [atLeast, ← h.perm.countP_eq, ← getElem_countP (h.prefix_atLeast t) hi, decide_eq_true_iff]

theorem Descending.take_above (h : Descending key table rows) (t : ι) :
    rows.take (above key t table) = rows.filter fun a => t < key a := by
  rw [above, ← h.perm.countP_eq, take_countP (h.prefix_above t)]

/-- Where no tie is split, all orders have the same rows before the position. -/
theorem Descending.take_perm (h : Descending key table rows) (h' : Descending key table other)
    (hp : ¬ Splits key table p) : (rows.take p).Perm (other.take p) := by
  by_cases hlength : p < rows.length
  · have hmem : rows[p] ∈ table := h.perm.subset (List.getElem_mem hlength)
    have hle : ¬ p < above key (key rows[p]) table := by
      rw [← h.lt_key_iff hlength]
      exact lt_irrefl _
    have hlt : p < atLeast key (key rows[p]) table := (h.le_key_iff hlength _).mp le_rfl
    have heq : above key (key rows[p]) table = p := by
      by_contra hne
      exact hp ⟨rows[p], hmem, by omega, hlt⟩
    have htake := h.take_above (key rows[p])
    have htake' := h'.take_above (key rows[p])
    rw [heq] at htake htake'
    rw [htake, htake']
    exact (h.perm.trans h'.perm.symm).filter _
  · have hlength' : ¬ p < other.length := by
      rw [h'.length_eq, ← h.length_eq]
      exact hlength
    rw [List.take_of_length_le (by omega), List.take_of_length_le (by omega)]
    exact h.perm.trans h'.perm.symm

theorem Descending.page_perm (h : Descending key table rows) (h' : Descending key table other)
    {limit : Nat} (hp : ¬ Splits key table p) (hnext : ¬ Splits key table (p + limit)) :
    (page rows limit p).Perm (page other limit p) := by
  have hshorter := h.take_perm h' hp
  have hlonger := h.take_perm h' hnext
  rw [List.take_add, List.take_add] at hlonger
  exact (List.perm_append_left_iff _).mp (hlonger.trans (hshorter.symm.append_right _))

theorem exists_descending (key : α → ι) (table : List α) :
    ∃ rows, Descending key table rows := by
  let le : α → α → Bool := fun a b => key b ≤ key a
  have htrans : ∀ a b c, le a b = true → le b c = true → le a c = true := by
    intro a b c hab hbc
    exact decide_eq_true ((of_decide_eq_true hbc).trans (of_decide_eq_true hab))
  have htotal : ∀ a b, (le a b || le b a) = true := by
    intro a b
    simpa [le] using le_total (key b) (key a)
  have hsorted := List.pairwise_mergeSort htrans htotal table
  exact ⟨table.mergeSort le, List.mergeSort_perm table le, hsorted.imp of_decide_eq_true⟩

theorem Descending.swap {before after : List α} {x y : α} (hkey : key x = key y)
    (h : Descending key table (before ++ x :: y :: after)) :
    Descending key table (before ++ y :: x :: after) where
  perm := ((List.Perm.swap x y after).append_left before).trans h.perm
  sorted := by
    have hkeys : (before ++ y :: x :: after).map key = (before ++ x :: y :: after).map key := by
      simp [hkey]
    have hsorted := h.sorted
    rw [← List.pairwise_map (R := fun s t => t ≤ s)] at hsorted ⊢
    rw [hkeys]
    exact hsorted

theorem Splits.tie (h : Splits key table (p + 1)) (hrows : Descending key table rows) :
    ∃ before x y after, rows = before ++ x :: y :: after ∧ before.length = p ∧ key x = key y := by
  obtain ⟨a, -, habove, hatLeast⟩ := h
  have hnext : p + 1 < rows.length := by
    rw [hrows.length_eq]
    exact hatLeast.trans_le List.countP_le_length
  have hp : p < rows.length := by omega
  have htie : ∀ i (hi : i < rows.length), above key (key a) table ≤ i →
      i < atLeast key (key a) table → key rows[i] = key a := by
    intro i hi hlow hhigh
    apply le_antisymm
    · rw [← not_lt, hrows.lt_key_iff hi]
      omega
    · rw [hrows.le_key_iff hi]
      exact hhigh
  refine ⟨rows.take p, rows[p], rows[p + 1], rows.drop (p + 2), ?_, ?_, ?_⟩
  · rw [← List.drop_eq_getElem_cons hnext, ← List.drop_eq_getElem_cons hp, List.take_append_drop]
  · rw [List.length_take]
    omega
  · rw [htie p hp (by omega) (by omega), htie (p + 1) hnext (by omega) hatLeast]

/-- Where a tie is split, two orders can show one row on both sides of the position. -/
theorem Splits.repeats (h : Splits key table p) :
    ∃ rows other, Descending key table rows ∧ Descending key table other ∧
      ¬ (rows.take p ++ other.drop p).Nodup := by
  obtain ⟨rows, hrows⟩ := exists_descending key table
  cases p with
  | zero =>
      obtain ⟨a, -, habove, -⟩ := h
      omega
  | succ p =>
      obtain ⟨before, x, y, after, rfl, hlength, hkey⟩ := h.tie hrows
      refine ⟨_, _, hrows, hrows.swap hkey, fun hnodup => ?_⟩
      have hleft : x ∈ (before ++ x :: y :: after).take (p + 1) := by
        simp [List.take_append, hlength]
      have hright : x ∈ (before ++ y :: x :: after).drop (p + 1) := by
        simp [List.drop_append, hlength]
      exact (List.nodup_append.mp hnodup).2.2 x hleft x hright rfl

theorem atLeast_eq (key : α → ι) (t : ι) (table : List α) :
    atLeast key t table = above key t table + (table.map key).count t := by
  induction table with
  | nil => rfl
  | cons a table ih =>
      simp only [atLeast, above] at ih ⊢
      rw [List.countP_cons, List.countP_cons, ih, List.map_cons, List.count_cons]
      rcases lt_trichotomy t (key a) with hlt | heq | hgt
      · simp only [hlt, hlt.le, hlt.ne', beq_iff_eq, decide_true, if_true, if_false]
        omega
      · simp [heq, Nat.add_assoc]
      · simp [hgt.le.not_gt, hgt.not_ge, hgt.ne]

theorem not_splits_of_nodup (h : (table.map key).Nodup) (p : Nat) : ¬ Splits key table p := by
  rintro ⟨a, -, habove, hatLeast⟩
  rw [atLeast_eq] at hatLeast
  have honce := List.nodup_iff_count_le_one.mp h (key a)
  omega

/-- The pages up to the last, each in the order of its own query. -/
def allPages (orders : Nat → List α) (limit count : Nat) : List α :=
  (List.range count).flatMap fun k => page (orders k) limit (k * limit)

theorem allPages_change (rows other : List α) (limit m d : Nat) :
    allPages (fun k => if k < m then rows else other) limit (m + d) =
      rows.take (m * limit) ++ (other.drop (m * limit)).take (d * limit) := by
  rw [allPages, List.range_add, List.flatMap_append, List.flatMap_map]
  congr 1
  · rw [← flatMap_page]
    apply List.flatMap_congr
    intro k hk
    rw [if_pos (List.mem_range.mp hk)]
  · rw [← flatMap_page]
    apply List.flatMap_congr
    intro k hk
    rw [if_neg (by omega), page_drop, Nat.add_mul]

theorem Splits.lt_length (h : Splits key table p) : p < table.length := by
  obtain ⟨a, -, -, hatLeast⟩ := h
  exact hatLeast.trans_le List.countP_le_length

theorem length_le_pageCount (n : Nat) {limit : Nat} (hlimit : 1 ≤ limit) :
    n ≤ pageCount n limit * limit :=
  (pageCount_le_iff hlimit).mp le_rfl

theorem allPages_perm {orders : Nat → List α} (horders : ∀ k, Descending key table (orders k))
    {limit : Nat} (hsplit : ∀ k, ¬ Splits key table (k * limit)) (count : Nat) :
    (allPages orders limit count).Perm ((orders 0).take (count * limit)) := by
  rw [← flatMap_page]
  apply List.Perm.flatMap_left
  intro k _
  apply (horders k).page_perm (horders 0) (hsplit k)
  rw [← Nat.succ_mul]
  exact hsplit (k + 1)

/-- All pages together are the table, whatever the orders, if and only if no page ends
inside a tie. -/
theorem allPages_perm_iff (hnodup : table.Nodup) {limit : Nat} (hlimit : 1 ≤ limit) :
    (∀ orders : Nat → List α, (∀ k, Descending key table (orders k)) →
      (allPages orders limit (pageCount table.length limit)).Perm table) ↔
      ∀ k, ¬ Splits key table (k * limit) := by
  have hcount := length_le_pageCount table.length hlimit
  constructor
  · intro hall m hsplit
    obtain ⟨rows, other, hrows, hother, hrepeats⟩ := hsplit.repeats
    have hm : m ≤ pageCount table.length limit := by
      by_contra hlt
      have hle := (pageCount_le_iff (n := table.length) (k := m) hlimit).mp (by omega)
      have hlast := hsplit.lt_length
      omega
    obtain ⟨d, hd⟩ := Nat.exists_eq_add_of_le hm
    rw [hd, Nat.add_mul] at hcount
    have hperm := hall (fun k => if k < m then rows else other) fun k => by
      split
      · exact hrows
      · exact hother
    have hrest : (other.drop (m * limit)).take (d * limit) = other.drop (m * limit) := by
      apply List.take_of_length_le
      rw [List.length_drop, hother.length_eq]
      omega
    rw [hd, allPages_change, hrest] at hperm
    exact hrepeats (hperm.nodup_iff.mpr hnodup)
  · intro hsplit orders horders
    have hperm := allPages_perm horders hsplit (pageCount table.length limit)
    have hlength := (horders 0).length_eq
    rw [List.take_of_length_le (by omega)] at hperm
    exact hperm.trans (horders 0).perm

end Order

end EventAnalytics.Library
