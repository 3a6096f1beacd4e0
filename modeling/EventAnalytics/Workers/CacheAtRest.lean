import EventAnalytics.Workers.ClosedPeriods

/-! Whether the cache agrees with the snapshots when nothing is going on. A
computation writes the cache before its transaction commits, and a reader fills it
from a row that it has read some time ago. -/
namespace EventAnalytics.Workers

open Library Library.Discipline Db Services

/-- The cache shows nothing but what is committed. -/
def Current (w : Warehouse) (p : Period) : Prop :=
  ∀ row, w.cached? p = some row → (w.rows p).map (countsOf p) = some (countsOf p row)

def current (w : Warehouse) (p : Period) : Bool :=
  match w.cached? p with
  | none => true
  | some row => (w.rows p).map (countsOf p) = some (countsOf p row)

theorem current_iff {w : Warehouse} {p : Period} : current w p = true ↔ Current w p := by
  unfold current Current
  cases w.cached? p <;> simp

/-- The entry in the cache, even one that has expired, has these counts. -/
def holds (w : Warehouse) (p : Period) (counts : List Nat) : Bool :=
  (w.cache p).any fun c => countsOf p c.row = counts

/-- The session may lose what it has written: the cache does not show it. -/
def spare (i : Nat) (w : Warehouse) : Bool :=
  w.written.all fun jr => jr.1 ≠ i || current w jr.2.1

/-- What a reader puts into the cache is committed, and it is put over nothing that
an open transaction has put there. -/
def timely (w : Warehouse) (p : Period) (counts : List Nat) : Bool :=
  (w.rows p).map (countsOf p) = some counts &&
    w.written.all fun jr => jr.2.1 ≠ p || countsOf jr.2.1 jr.2.2 = counts ||
      !holds w jr.2.1 (countsOf jr.2.1 jr.2.2)

/-- Readers fill the cache in time, and what a transaction has put into the cache
is not rolled back. -/
def undisturbed : Policy MetricsCmd Warehouse Choice MetricsEnv where
  step i ch w c :=
    match ch, c with
    | .raiseBefore, .cacheSet .. => true
    | _, .cacheSet p row _ => (w.own? i p).isSome || timely w p (countsOf p row)
    | _, .rollback => spare i w
    | .raiseAfter, c => !c.statement || spare i w
    | _, _ => true
  crash i w _ := spare i w
  env := fun _ _ => true

/-- Commands that leave snapshots and cache as they are. -/
def reads : MetricsCmd → Bool
  | .now | .cacheGet _ | .advisoryLock _ | .countUsers .. | .select _ => true
  | _ => false

structure SameSnapshots (w w' : Warehouse) : Prop where
  written : w'.written = w.written
  cache : w'.cache = w.cache
  rows : w'.rows = w.rows
  clock : w'.clock = w.clock

theorem warehouse_exec {i : Nat} {ch : Choice} {w w' : Warehouse} {c : MetricsCmd}
    {r : Except Exn c.Resp} (hexec : warehouse.exec i ch w c = some (r, w')) :
    (SameSnapshots w w' ∧ (reads c = true ∨ ∃ e, r = .error e)) ∨
      (ch = .raiseAfter ∧ c.statement = true ∧ (∃ e, r = .error e) ∧ w' = w.abortTx i) ∨
      (∃ p row ttl, c = .cacheSet p row ttl ∧ ch ≠ .raiseBefore ∧ w' =
        { w with cache := Function.update w.cache p (some ⟨row, w.clock + ttl * 1000⟩) }) ∨
      (∃ p insert update, c = .upsert p insert update ∧
        (w.written.any fun jr => jr.1 ≠ i ∧ jr.2.1 = p) = false ∧
        w' = w.upsert i p insert update) ∨
      (c = .commit ∧ w' = w.commitTx i) ∨ (c = .rollback ∧ w' = w.rollbackTx i) := by
  have hsame : SameSnapshots w w := ⟨rfl, rfl, rfl, rfl⟩
  cases ch with
  | ok =>
      cases c <;> simp only [warehouse, metricsEffect] at hexec
      case now | cacheGet =>
        cases hexec
        exact .inl ⟨hsame, .inl rfl⟩
      case cacheSet p row ttl =>
        split at hexec <;> cases hexec
        · exact .inl ⟨hsame, .inr ⟨_, rfl⟩⟩
        · exact .inr (.inr (.inl ⟨p, row, ttl, rfl, by simp, rfl⟩))
      case advisoryLock key =>
        split at hexec
        · cases hexec
          exact .inl ⟨hsame, .inl rfl⟩
        · split at hexec <;> cases hexec
          exact .inl ⟨⟨rfl, rfl, rfl, rfl⟩, .inl rfl⟩
      case countUsers | select =>
        split at hexec <;> cases hexec <;> exact .inl ⟨hsame, .inl rfl⟩
      case upsert p insert update =>
        split at hexec
        · cases hexec
          exact .inl ⟨hsame, .inr ⟨_, rfl⟩⟩
        · split at hexec <;> cases hexec
          rename_i hfree
          exact .inr (.inr (.inr (.inl
            ⟨p, insert, update, rfl, (Bool.not_eq_true _).mp hfree, rfl⟩)))
      case commit =>
        cases hexec
        exact .inr (.inr (.inr (.inr (.inl ⟨rfl, rfl⟩))))
      case rollback =>
        cases hexec
        exact .inr (.inr (.inr (.inr (.inr ⟨rfl, rfl⟩))))
  | raiseBefore =>
      cases c
      case rollback =>
        cases hexec
        exact .inr (.inr (.inr (.inr (.inr ⟨rfl, rfl⟩))))
      all_goals
        cases hexec
        exact .inl ⟨hsame, .inr ⟨_, rfl⟩⟩
  | raiseAfter =>
      cases c <;> simp only [warehouse, metricsEffect, MetricsCmd.statement] at hexec
      case rollback =>
        cases hexec
        exact .inr (.inr (.inr (.inr (.inr ⟨rfl, rfl⟩))))
      case commit =>
        cases hexec
        exact .inr (.inr (.inr (.inr (.inl ⟨rfl, rfl⟩))))
      case cacheSet p row ttl =>
        split at hexec
        · contradiction
        · split at hexec <;> cases hexec
          · exact .inl ⟨hsame, .inr ⟨_, rfl⟩⟩
          · exact .inr (.inr (.inl ⟨p, row, ttl, rfl, by simp, rfl⟩))
      case now | cacheGet =>
        cases hexec
        exact .inl ⟨hsame, .inr ⟨_, rfl⟩⟩
      all_goals
        cases hexec
        exact .inr (.inl ⟨rfl, rfl, ⟨_, rfl⟩, rfl⟩)

/-- Unless a session is about to replace it, what is committed is what the cache shows;
and two sessions do not write the same snapshot. -/
structure Coherent (w : Warehouse) : Prop where
  current : ∀ p, (∀ i, w.own? i p = none) → Current w p
  exclusive : ∀ i j p, (w.own? i p).isSome = true → (w.own? j p).isSome = true → i = j

/-- What session `i` relies on: it alone writes for itself, and what it has put into
the cache stays there. -/
structure Undisturbed (i : Nat) (w w' : Warehouse) : Prop where
  own : ∀ p, w'.own? i p = w.own? i p
  holds : ∀ p row, w.own? i p = some row → holds w p (countsOf p row) = true →
    holds w' p (countsOf p row) = true

theorem Undisturbed.refl (i : Nat) (w : Warehouse) : Undisturbed i w w :=
  ⟨fun _ => rfl, fun _ _ _ h => h⟩

theorem Undisturbed.trans {i : Nat} {a b c : Warehouse} (hab : Undisturbed i a b)
    (hbc : Undisturbed i b c) : Undisturbed i a c :=
  ⟨fun p => (hbc.own p).trans (hab.own p), fun p row hrow hholds =>
    hbc.holds p row ((hab.own p).trans hrow) (hab.holds p row hrow hholds)⟩

def Backed (i : Nat) (w : Warehouse) : Prop :=
  ∀ p own, w.own? i p = some own → holds w p (countsOf p own) = true

/-- A session puts into the cache what it has written, and commits what is there. -/
def cacheDuty (i : Nat) (w : Warehouse) : MetricsCmd → Prop
  | .cacheSet p row _ => ∀ own, w.own? i p = some own → countsOf p own = countsOf p row
  | .commit => Backed i w
  | _ => True

section Sound

variable {w w' : Warehouse} {i : Nat} {p : Period}

theorem cached?_congr (hcache : w'.cache = w.cache) (hclock : w'.clock = w.clock) (p : Period) :
    w'.cached? p = w.cached? p := by
  simp only [Warehouse.cached?, hcache, hclock]

theorem holds_congr (hcache : w'.cache = w.cache) (p : Period) (counts : List Nat) :
    holds w' p counts = holds w p counts := by
  simp only [holds, hcache]

theorem holds_cached {row : p.Row} {counts : List Nat} (hholds : holds w p counts = true)
    (hrow : w.cached? p = some row) : countsOf p row = counts := by
  unfold holds at hholds
  unfold Warehouse.cached? at hrow
  cases hcache : w.cache p with
  | none => simp [hcache] at hrow
  | some c =>
      simp only [hcache, Option.any_some, decide_eq_true_eq] at hholds
      simp only [hcache, Option.ite_none_right_eq_some, Option.some.injEq] at hrow
      rw [← hrow.2, hholds]

theorem undisturbed_of_cache {j : Nat} (hcache : w'.cache = w.cache)
    (hown : ∀ p, w'.own? j p = w.own? j p) : Undisturbed j w w' := by
  refine ⟨hown, fun p row _ hholds => ?_⟩
  rw [holds_congr hcache]
  exact hholds

theorem Current.of_cached (h : Current w p) (hrows : w'.rows p = w.rows p)
    (hcached : ∀ row, w'.cached? p = some row → w.cached? p = some row) : Current w' p := by
  intro row hrow
  rw [hrows]
  exact h row (hcached row hrow)

theorem Coherent.of_rows (h : Coherent w) (hown : ∀ j p, w'.own? j p = w.own? j p)
    (hrows : w'.rows = w.rows)
    (hcached : ∀ p row, w'.cached? p = some row → w.cached? p = some row) : Coherent w' where
  current p hnone := by
    have hcurrent := h.current p fun j => (hown j p).symm.trans (hnone j)
    exact hcurrent.of_cached (congrFun hrows p) (hcached p)
  exclusive j k p := by
    rw [hown, hown]
    exact h.exclusive j k p

theorem Coherent.same (h : Coherent w) (hsame : SameSnapshots w w') :
    Coherent w' ∧ ∀ j, Undisturbed j w w' := by
  have hown := Warehouse.own?_congr hsame.written
  have hcached := cached?_congr hsame.cache hsame.clock
  constructor
  · apply h.of_rows hown hsame.rows
    intro p row hrow
    rwa [hcached] at hrow
  · exact fun j => undisturbed_of_cache hsame.cache (hown j)

theorem Coherent.tick (h : Coherent w) {ms : Nat} (hw' : w' = { w with clock := w.clock + ms }) :
    Coherent w' ∧ ∀ j, Undisturbed j w w' := by
  subst hw'
  have hown : ∀ j p, Warehouse.own? { w with clock := w.clock + ms } j p = w.own? j p :=
    fun _ _ => rfl
  constructor
  · apply h.of_rows hown rfl
    intro p row hrow
    unfold Warehouse.cached? at hrow ⊢
    cases hcache : w.cache p with
    | none => simp [hcache] at hrow
    | some c =>
        simp only [hcache, Option.ite_none_right_eq_some] at hrow ⊢
        exact ⟨by omega, hrow.2⟩
  · exact fun j => undisturbed_of_cache rfl (hown j)

theorem Coherent.exclusive_dropped (h : Coherent w) (hwritten : w'.written = w.dropWrites i)
    {j k : Nat} (hj : (w'.own? j p).isSome = true) (hk : (w'.own? k p).isSome = true) : j = k := by
  have hothers : ∀ l, (w'.own? l p).isSome = true → (w.own? l p).isSome = true := by
    intro l hl
    have hne : l ≠ i := by
      rintro rfl
      simp [Warehouse.own?_dropped_self hwritten] at hl
    rwa [Warehouse.own?_dropped_ne hwritten hne] at hl
  exact h.exclusive j k p (hothers j hj) (hothers k hk)

theorem own?_none_of_dropped (hwritten : w'.written = w.dropWrites i)
    (hnone : ∀ j, w'.own? j p = none) (hown : w.own? i p = none) (j : Nat) :
    w.own? j p = none := by
  by_cases hj : j = i
  · rw [hj, hown]
  · rw [← Warehouse.own?_dropped_ne hwritten hj, hnone j]

theorem Coherent.drop (h : Coherent w) (hspare : spare i w = true)
    (hwritten : w'.written = w.dropWrites i) (hcache : w'.cache = w.cache)
    (hrows : w'.rows = w.rows) (hclock : w'.clock = w.clock) :
    Coherent w' ∧ ∀ j, j ≠ i → Undisturbed j w w' := by
  refine ⟨⟨fun p hnone => ?_, fun j k p => h.exclusive_dropped hwritten⟩, fun j hj =>
    undisturbed_of_cache hcache fun p => Warehouse.own?_dropped_ne hwritten hj⟩
  have hcurrent : Current w p := by
    cases hown : w.own? i p with
    | none => exact h.current p (own?_none_of_dropped hwritten hnone hown)
    | some row =>
        have hall := List.all_eq_true.mp hspare _ (Warehouse.mem_of_own? hown)
        exact current_iff.mp (by simpa using hall)
  apply hcurrent.of_cached (congrFun hrows p)
  intro row hrow
  rwa [cached?_congr hcache hclock] at hrow

theorem Coherent.commit (h : Coherent w) (hbacked : Backed i w) :
    Coherent (w.commitTx i) ∧ ∀ j, j ≠ i → Undisturbed j w (w.commitTx i) := by
  have hwritten : (w.commitTx i).written = w.dropWrites i := rfl
  refine ⟨⟨fun p hnone => ?_, fun j k p => h.exclusive_dropped hwritten⟩, fun j hj =>
    undisturbed_of_cache rfl fun p => Warehouse.own?_dropped_ne hwritten hj⟩
  cases hown : w.own? i p with
  | none =>
      have hcurrent := h.current p (own?_none_of_dropped hwritten hnone hown)
      exact hcurrent.of_cached (by simp only [Warehouse.commitTx, hown]) fun row hrow => hrow
  | some own =>
      have hrows : (w.commitTx i).rows p = some own := by simp only [Warehouse.commitTx, hown]
      intro row hrow
      rw [hrows, Option.map_some, holds_cached (hbacked p own hown) hrow]

theorem Coherent.upsert (h : Coherent w) {insert update : p.Row}
    (hfree : (w.written.any fun jr => jr.1 ≠ i ∧ jr.2.1 = p) = false) :
    Coherent (w.upsert i p insert update) ∧
      ∀ j, j ≠ i → Undisturbed j w (w.upsert i p insert update) := by
  have hothers : ∀ j q, j ≠ i ∨ q ≠ p →
      (w.upsert i p insert update).own? j q = w.own? j q := fun j q hne =>
    Warehouse.own?_upsert_ne hne insert update
  have hwriter : ∀ j, ((w.upsert i p insert update).own? j p).isSome = true → j = i := by
    intro j hj
    by_contra hne
    rw [hothers j p (.inl hne)] at hj
    obtain ⟨row, hrow⟩ := Warehouse.own?_isSome.mp hj
    simpa [hne] using List.any_eq_false.mp hfree _ hrow
  refine ⟨⟨fun q hnone => ?_, fun j k q hj hk => ?_⟩, fun j hj =>
    undisturbed_of_cache rfl fun q => hothers j q (.inl hj)⟩
  · have hq : q ≠ p := by
      rintro rfl
      simpa [Warehouse.own?_upsert_self] using hnone i
    have hcurrent := h.current q fun j => (hothers j q (.inr hq)).symm.trans (hnone j)
    exact hcurrent.of_cached rfl fun row hrow => hrow
  · by_cases hq : q = p
    · subst hq
      rw [hwriter j hj, hwriter k hk]
    · rw [hothers j q (.inr hq)] at hj
      rw [hothers k q (.inr hq)] at hk
      exact h.exclusive j k q hj hk

theorem Coherent.cacheSet (h : Coherent w) {row : p.Row} {expiry : Nat}
    (hadm : ((w.own? i p).isSome || timely w p (countsOf p row)) = true)
    (hcache : w'.cache = Function.update w.cache p (some ⟨row, expiry⟩))
    (hwritten : w'.written = w.written) (hrows : w'.rows = w.rows) (hclock : w'.clock = w.clock) :
    Coherent w' ∧ ∀ j, j ≠ i → Undisturbed j w w' := by
  have hown := Warehouse.own?_congr hwritten
  have hset : w'.cache p = some ⟨row, expiry⟩ := by rw [hcache, Function.update_self]
  have hkept : ∀ q, q ≠ p → w'.cache q = w.cache q := by
    intro q hq
    rw [hcache, Function.update_of_ne hq]
  have htimely : w.own? i p = none → timely w p (countsOf p row) = true := by
    intro hnone
    simpa [hnone] using hadm
  refine ⟨⟨fun q hnone => ?_, fun j k q => ?_⟩, fun j hj =>
    ⟨hown j, fun q own howns hholds => ?_⟩⟩
  · by_cases hq : q = p
    · subst hq
      intro row' hrow'
      have hcommitted := (Bool.and_eq_true_iff.mp (htimely ((hown i q).symm.trans (hnone i)))).1
      have hcounts : holds w' q (countsOf q row) = true := by simp [holds, hset]
      rw [holds_cached hcounts hrow', hrows]
      exact of_decide_eq_true hcommitted
    · have hcurrent := h.current q fun j => (hown j q).symm.trans (hnone j)
      apply hcurrent.of_cached (congrFun hrows q)
      intro row' hrow'
      rwa [Warehouse.cached?, hkept q hq, hclock] at hrow'
  · rw [hown, hown]
    exact h.exclusive j k q
  · by_cases hq : q = p
    · subst hq
      have hnone : w.own? i q = none := by
        by_contra hsome
        exact hj (h.exclusive j i q (by simp [howns]) (Option.isSome_iff_ne_none.mpr hsome))
      have hall := (Bool.and_eq_true_iff.mp (htimely hnone)).2
      have hpending := List.all_eq_true.mp hall _ (Warehouse.mem_of_own? howns)
      have hsame : countsOf q own = countsOf q row := by simpa [hholds] using hpending
      simp [holds, hset, hsame]
    · simpa only [holds, hkept q hq] using hholds

theorem Coherent.exec (h : Coherent w) {ch : Choice} {c : MetricsCmd} {r : Except Exn c.Resp}
    (hadm : undisturbed.step i ch w c = true) (hduty : cacheDuty i w c)
    (hexec : warehouse.exec i ch w c = some (r, w')) :
    Coherent w' ∧ ∀ j, j ≠ i → Undisturbed j w w' := by
  rcases warehouse_exec hexec with ⟨hsame, -⟩ | ⟨rfl, hstatement, -, rfl⟩ |
    ⟨p, row, ttl, rfl, hch, rfl⟩ | ⟨p, insert, update, rfl, hfree, rfl⟩ | ⟨rfl, rfl⟩ | ⟨rfl, rfl⟩
  · exact ⟨(h.same hsame).1, fun j _ => (h.same hsame).2 j⟩
  · have hspare : spare i w = true := by
      cases c <;> simp_all [undisturbed, MetricsCmd.statement]
    exact h.drop hspare rfl rfl rfl rfl
  · refine h.cacheSet ?_ rfl rfl rfl rfl
    cases ch <;> first | exact absurd rfl hch | exact hadm
  · exact h.upsert hfree
  · exact h.commit hduty
  · have hspare : spare i w = true := by cases ch <;> exact hadm
    exact h.drop hspare rfl rfl rfl rfl

end Sound

def coherence : Discipline MetricsCmd.Resp Exn Warehouse Choice MetricsEnv where
  machine := warehouse
  policy := undisturbed
  inv := Coherent
  rely := Undisturbed
  duty := cacheDuty
  rely_refl := Undisturbed.refl
  rely_trans := fun _ _ _ _ hab hbc => hab.trans hbc
  step_sound := fun _ _ _ _ _ _ hadm hinv hduty hexec => hinv.exec hadm hduty hexec
  crash_sound := fun _ _ _ hadm hinv => hinv.drop hadm rfl rfl rfl rfl
  env_sound := by
    intro e w w' _ hinv henv
    cases e with
    | tick ms => exact hinv.tick (Option.some.inj henv).symm
    | store row =>
        cases henv
        exact hinv.same ⟨rfl, rfl, rfl, rfl⟩

section Sessions

variable {w w' : Warehouse} {i : Nat} {p : Period} {settings : Settings}

/-- All that the session has written is a snapshot of `p` with these counts. -/
def WroteOnly (i : Nat) (p : Period) (counts : List Nat) (w : Warehouse) : Prop :=
  ∀ q own, w.own? i q = some own → q = p ∧ countsOf q own = counts

def Clean (i : Nat) (w : Warehouse) : Prop :=
  ∀ p, w.own? i p = none

theorem Clean.wroteOnly (h : Clean i w) (p : Period) (counts : List Nat) :
    WroteOnly i p counts w := by
  intro q own hown
  rw [h q] at hown
  cases hown

theorem Clean.backed (h : Clean i w) : Backed i w := by
  intro q own hown
  rw [h q] at hown
  cases hown

/-- An assertion about what the session has written, true when that is nothing. -/
structure OfOwn (i : Nat) (P : Warehouse → Prop) : Prop where
  congr : ∀ w w', (∀ p, w'.own? i p = w.own? i p) → P w → P w'
  clean : ∀ w, Clean i w → P w

theorem ofOwn_wroteOnly (p : Period) (counts : List Nat) : OfOwn i (WroteOnly i p counts) where
  congr w w' hown h q own hq := by
    rw [hown] at hq
    exact h q own hq
  clean w h := h.wroteOnly p counts

theorem ofOwn_clean : OfOwn i (Clean i) :=
  ⟨fun _ _ hown h p => (hown p).trans (h p), fun _ h => h⟩

theorem Backed.later (h : Backed i w) (hlater : coherence.Later i w w') : Backed i w' := by
  intro p own hown
  rw [hlater.2.own] at hown
  exact hlater.2.holds p own hown (h p own hown)

theorem wp_reads {c : MetricsCmd} {P : Warehouse → Prop} (hP : OfOwn i P)
    (hreads : reads c = true) (h : P w) :
    coherence.wp i (ask c) (ends (fun _ => P) fun _ => P) w := by
  have hduty : coherence.duty i w c := by
    cases c <;> trivial
  apply wp_perform hduty (fun _ _ _ => trivial)
  intro ch r w₁ _ hexec w₂ hlater
  have hkept : P w₁ := by
    rcases warehouse_exec hexec with ⟨hsame, -⟩ | ⟨-, -, -, rfl⟩ |
      ⟨p, row, ttl, rfl, -⟩ | ⟨p, insert, update, rfl, -⟩ | ⟨rfl, -⟩ | ⟨rfl, -⟩
    · exact hP.congr w w₁ (Warehouse.own?_congr hsame.written i) h
    · exact hP.clean _ fun p => Warehouse.own?_dropped_self rfl
    · cases hreads
    · cases hreads
    · cases hreads
    · cases hreads
  have hlast := hP.congr w₁ w₂ hlater.2.own hkept
  cases r with
  | ok a => exact hlast
  | error e => exact hlast

theorem wp_upsert (h : Clean i w) {insert update : p.Row} {counts : List Nat}
    (hinsert : countsOf p insert = counts) (hupdate : countsOf p update = counts) :
    coherence.wp i (ask (.upsert p insert update))
      (ends (fun _ => WroteOnly i p counts) fun _ _ => True) w := by
  apply wp_perform trivial (fun _ _ _ => trivial)
  intro ch r w₁ _ hexec w₂ hlater
  cases r with
  | error e => trivial
  | ok a =>
      refine (ofOwn_wroteOnly p counts).congr w₁ w₂ hlater.2.own fun q own hown => ?_
      rcases warehouse_exec hexec with ⟨-, hreads | ⟨e, he⟩⟩ | ⟨-, -, ⟨e, he⟩, -⟩ |
        ⟨_, _, _, hc, -⟩ | ⟨_, _, _, hc, -, rfl⟩ | ⟨hc, -⟩ | ⟨hc, -⟩
      case inr.inr.inr.inl =>
        cases hc
        by_cases hq : q = p
        · subst hq
          rw [Warehouse.own?_upsert_self, Option.some.injEq] at hown
          refine ⟨rfl, ?_⟩
          rw [← hown]
          split
          · exact hupdate
          · exact hinsert
        · rw [Warehouse.own?_upsert_ne (.inr hq), h q] at hown
          cases hown
      case inl.inl => cases hreads
      all_goals first | cases he | cases hc

theorem wp_cacheSet {row : p.Row} {counts : List Nat} (h : WroteOnly i p counts w)
    (hrow : countsOf p row = counts) (ttl : Nat) :
    coherence.wp i (ask (.cacheSet p row ttl)) (ends (fun _ => Backed i) fun _ _ => True) w := by
  have hduty : coherence.duty i w (.cacheSet p row ttl) := by
    intro own hown
    rw [(h p own hown).2, hrow]
  apply wp_perform hduty (fun _ _ _ => trivial)
  intro ch r w₁ _ hexec w₂ hlater
  cases r with
  | error e => trivial
  | ok a =>
      refine Backed.later (fun q own hown => ?_) hlater
      rcases warehouse_exec hexec with ⟨-, hreads | ⟨e, he⟩⟩ | ⟨-, -, ⟨e, he⟩, -⟩ |
        ⟨_, _, _, hc, -, rfl⟩ | ⟨_, _, _, hc, -⟩ | ⟨hc, -⟩ | ⟨hc, -⟩
      case inr.inr.inl =>
        cases hc
        obtain ⟨rfl, hcounts⟩ := h q own hown
        simp only [holds, Function.update_self, Option.any_some, decide_eq_true_eq]
        rw [hrow, hcounts]
      case inl.inl => cases hreads
      all_goals first | cases he | cases hc

theorem wp_rollback :
    coherence.wp i (ask .rollback) (ends (fun _ => Clean i) fun _ => Clean i) w := by
  apply wp_perform trivial (fun _ _ _ => trivial)
  intro ch r w₁ _ hexec w₂ hlater
  have hclean : Clean i w₂ := by
    refine ofOwn_clean.congr w₁ w₂ hlater.2.own fun p => ?_
    cases ch <;> (cases hexec; exact Warehouse.own?_dropped_self rfl)
  cases r with
  | ok a => exact hclean
  | error e => exact hclean

theorem wp_session {α : Type} {body : MetricsApp α}
    (h : coherence.wp i body (ends (fun _ _ => True) fun _ _ => True) w) :
    coherence.wp i (withSession (ask .rollback) body) (ends (fun _ => Clean i) fun _ => Clean i)
      w := by
  unfold withSession
  have hbody : coherence.wp i (body.tryExcept fun exc => do
      ask .rollback
      .raise exc) (ends (fun _ _ => True) fun _ => Clean i) w := by
    apply wp_try h
    intro e w₁ _
    exact wp_seq wp_rollback fun _ _ hclean => hclean
  refine wp_seq hbody fun a w₁ _ => ?_
  exact wp_seq wp_rollback fun _ _ hclean => hclean

theorem wp_committed {α : Type} {body : MetricsApp α}
    (h : coherence.wp i body (ends (fun _ => Backed i) fun _ _ => True) w) :
    coherence.wp i (body >>= fun r => ask .commit >>= fun _ => pure r)
      (ends (fun _ _ => True) fun _ _ => True) w := by
  refine wp_seq h fun a w₁ hbacked => ?_
  exact wp_seq (wp_perform_any hbacked) fun _ _ _ => trivial

theorem wp_computeDau (h : Clean i w) (d : Day) :
    coherence.wp i (computeDau settings d) (ends (fun _ => Backed i) fun _ _ => True) w := by
  have hread : ∀ {c : MetricsCmd} {P : Warehouse → Prop} {w : Warehouse}, OfOwn i P →
      reads c = true → P w → coherence.wp i (ask c) (ends (fun _ => P) fun _ _ => True) w :=
    fun hP hreads h => wp_ends_mono (fun _ _ h => h) (fun _ _ _ => trivial) (wp_reads hP hreads h)
  refine wp_seq (hread ofOwn_clean rfl h) fun _ w₁ h₁ => ?_
  refine wp_seq (hread ofOwn_clean rfl h₁) fun dau w₂ h₂ => ?_
  refine wp_seq (hread ofOwn_clean rfl h₂) fun insertedAt w₃ h₃ => ?_
  refine wp_seq (hread ofOwn_clean rfl h₃) fun updatedAt w₄ h₄ => ?_
  refine wp_seq (wp_upsert h₄ rfl rfl) fun _ w₅ h₅ => ?_
  refine wp_seq (hread (ofOwn_wroteOnly _ _) rfl h₅) fun cachedAt w₆ h₆ => ?_
  refine wp_seq (wp_cacheSet h₆ ?_ _) fun _ w₇ h₇ => h₇
  rfl

theorem wp_now (h : Backed i w) :
    coherence.wp i (ask .now) (ends (fun _ => Backed i) fun _ _ => True) w := by
  apply wp_perform trivial (fun _ _ _ => trivial)
  intro ch r w₁ _ hexec w₂ hlater
  cases r with
  | error e => trivial
  | ok now =>
      have hw : w₁ = w := by cases ch <;> cases hexec; rfl
      exact (hw ▸ h : Backed i w₁).later hlater

theorem wp_getDau (h : Clean i w) (metricDate : Option Day) :
    coherence.wp i (getDau settings metricDate) (ends (fun _ => Backed i) fun _ _ => True) w := by
  have hread : ∀ {c : MetricsCmd} {w : Warehouse}, reads c = true → Clean i w →
      coherence.wp i (ask c) (ends (fun _ => Clean i) fun _ _ => True) w := fun hreads h =>
    wp_ends_mono (fun _ _ h => h) (fun _ _ _ => trivial) (wp_reads ofOwn_clean hreads h)
  have hdate : ∀ (d : Day) {w : Warehouse}, Clean i w →
      coherence.wp i (getDau settings (some d)) (ends (fun _ => Backed i) fun _ _ => True) w := by
    intro d w h
    simp only [getDau, Prog.pure_eq, Prog.ret_bind]
    refine wp_seq (hread rfl h) fun cached w₁ h₁ => ?_
    cases cached with
    | some data => exact h₁.backed
    | none =>
        refine wp_seq (hread rfl h₁) fun found w₂ h₂ => ?_
        cases found with
        | some row => exact wp_seq (wp_cacheSet (h₂.wroteOnly _ _) rfl _) fun _ w₃ h₃ => h₃
        | none =>
            refine wp_seq (wp_computeDau h₂ d) fun dau w₃ h₃ => ?_
            exact wp_seq (wp_now h₃) fun _ w₄ h₄ => h₄
  cases metricDate with
  | some d => exact hdate d h
  | none =>
      have htoday : coherence.wp i (dateOf <$> ask .now)
          (ends (fun _ => Clean i) fun _ _ => True) w := by
        rw [Prog.map_eq]
        exact wp_seq (hread rfl h) fun _ w₁ h₁ => h₁
      exact wp_seq htoday fun d w₁ h₁ => hdate d h₁

end Sessions

inductive DauCall
  | getDau (metricDate : Option Day)
  | computeDauJob

def DauCall.run (settings : Settings) : DauCall → MetricsApp Unit
  | .getDau metricDate => do
    let _ ← metricsRequest (Services.getDau settings metricDate)
    pure ()
  | .computeDauJob => do
    let _ ← Workers.computeDauJob settings
    pure ()

theorem DauCall.wp_run {settings : Settings} {i : Nat} {w : Warehouse} (h : Clean i w)
    (call : DauCall) :
    coherence.wp i (call.run settings) (ends (fun _ => Clean i) fun _ => Clean i) w := by
  cases call with
  | getDau metricDate =>
      refine wp_seq (wp_session (wp_committed (wp_getDau h metricDate))) fun _ w₁ h₁ => ?_
      exact h₁
  | computeDauJob =>
      have hjob : coherence.wp i (Workers.computeDauJob settings)
          (ends (fun _ => Clean i) fun _ => Clean i) w := by
        refine wp_seq (wp_reads ofOwn_clean rfl h) fun now w₁ h₁ => ?_
        refine wp_seq (wp_session (wp_committed (wp_computeDau h₁ _))) fun _ w₂ h₂ => ?_
        exact h₂
      exact wp_seq hjob fun _ w₁ h₁ => h₁

def dauCalls (settings : Settings) (calls : Nat → DauCall) (w : Warehouse) :
    Config MetricsCmd.Resp Exn Warehouse Unit :=
  ⟨w, fun i => .ready ((calls i).run settings)⟩

/-- Stores in which no transaction is open and the cache shows what is committed. -/
structure Agreeing (w : Warehouse) : Prop where
  written : w.written = []
  current : ∀ p, Current w p

theorem Agreeing.own? {w : Warehouse} (h : Agreeing w) (i : Nat) (p : Period) :
    w.own? i p = none := by
  simp [Warehouse.own?, h.written]

theorem Agreeing.keeps {w : Warehouse} (h : Agreeing w) (settings : Settings)
    (calls : Nat → DauCall) :
    coherence.Keeps (fun i _ => Clean i) (dauCalls settings calls w) := by
  have hcoherent : Coherent w := ⟨fun p _ => h.current p, fun i j p hi => by simp [h.own?] at hi⟩
  apply keeps_ready hcoherent
  intro i w' hlater
  have hclean : Clean i w' := fun p => (hlater.2.own p).trans (h.own? i p)
  have hcrash : ∀ v v', coherence.Later i (coherence.machine.crash i v) v' → Clean i v' :=
    fun v v' hv p => (hv.2.own p).trans (Warehouse.own?_dropped_self rfl)
  refine wp_mono (fun o v hv => ?_) (wp_crashing hcrash ((calls i).wp_run hclean))
  cases o <;> exact hv

/-- In every run in which nobody disturbs, and in every state in which no call is in
progress, the cached value of a date is the committed one. -/
theorem cached_committed_of_undisturbed {settings : Settings} {calls : Nat → DauCall}
    {w : Warehouse} (hw : Agreeing w) {cfg : Config MetricsCmd.Resp Exn Warehouse Unit}
    (hreach : Reach warehouse undisturbed (dauCalls settings calls w) cfg)
    (hrest : ∀ i, (cfg.threads i).inProgress = false) (d : Day) {cached : DauRow}
    (hcached : cfg.world.cached? (.dau d) = some cached) :
    ∃ row : DauRow, cfg.world.rows (.dau d) = some row ∧ cached.value = row.value := by
  have hstart := hw.keeps settings calls
  have hkeeps := hstart.reach hreach
  have hnone : ∀ i, cfg.world.own? i (.dau d) = none := by
    intro i
    rcases hkeeps.atRest (hrest i) with ⟨p, hready⟩ | ⟨o, hclean⟩
    · rw [(hstart.ready hreach hready).own]
      exact hw.own? i _
    · exact hclean _
  have hcurrent := hkeeps.inv.current (.dau d) hnone cached hcached
  obtain ⟨row, hrow, hcounts⟩ := Option.map_eq_some_iff.mp hcurrent
  exact ⟨row, hrow, by simpa [countsOf] using hcounts.symm⟩

/-- Two runs of the job, and a request for the day. -/
def readerBetween (i : Nat) : DauCall :=
  if i = 1 then .getDau (some 0) else .computeDauJob

def noon : Warehouse :=
  { lateStart with clock := 12 * 3600000 }

theorem agreeing_noon : Agreeing noon :=
  ⟨rfl, fun _ _ hrow => by cases hrow⟩

/-- `n` steps of one call, from its start. -/
def inTurn (i n : Nat) : List (Act Choice MetricsEnv) :=
  .start i :: List.replicate n (.step i .ok)

/-- The request reads the row and is overtaken by the second job. -/
def overtaken : List (Act Choice MetricsEnv) :=
  inTurn 0 10 ++ [.env (.tick 3600000), .env (.store lateEvent)] ++ inTurn 1 2 ++ inTurn 2 10 ++
    List.replicate 3 (.step 1 .ok)

def valueShown (w : Warehouse) (d : Day) : Option Nat :=
  (w.cached? (.dau d)).map DauRow.value

def valueStored (w : Warehouse) (d : Day) : Option Nat :=
  (w.rows (.dau d)).map DauRow.value

/-- Nothing fails, and the cache shows no user where the snapshot counts one. -/
theorem stale_value_cached :
    ¬ ∀ cfg, Reach warehouse .any (dauCalls {} readerBetween noon) cfg →
      (∀ i, (cfg.threads i).inProgress = false) → ∀ (d : Day) (cached : DauRow),
      cfg.world.cached? (.dau d) = some cached →
      ∃ row : DauRow, cfg.world.rows (.dau d) = some row ∧ cached.value = row.value := by
  intro h
  obtain ⟨cfg, hreach, hrest, htest⟩ := exists_rest_of_run (M := warehouse) (π := .any)
    overtaken 3 (dauCalls {} readerBetween noon)
    (fun cfg => valueShown cfg.world 0 = some 0 ∧ valueStored cfg.world 0 = some 1)
    (fun _ => rfl) (by decide) (by decide +kernel)
  obtain ⟨hshown, hstored⟩ := of_decide_eq_true htest
  obtain ⟨cached, hcached, hzero⟩ := Option.map_eq_some_iff.mp hshown
  obtain ⟨row, hrow, heq⟩ := h cfg hreach hrest 0 cached hcached
  rw [valueStored, hrow, Option.map_some, Option.some.injEq, ← heq, hzero] at hstored
  cases hstored

/-- One after the other: the request fills the cache from the row of the second job. -/
theorem cached_committed_of_undisturbed_in_turn :
    ∃ cfg cached row, Reach warehouse undisturbed (dauCalls {} readerBetween noon) cfg ∧
      cfg.world.cached? (.dau 0) = some cached ∧ cfg.world.rows (.dau 0) = some row ∧
      cached.value = row.value := by
  obtain ⟨cfg, hreach, hrest, htest⟩ := exists_rest_of_run (M := warehouse) (π := undisturbed)
    (inTurn 0 10 ++ [.env (.tick 3600000), .env (.store lateEvent)] ++ inTurn 2 10 ++
      .env (.tick 3600000) :: inTurn 1 5) 3 (dauCalls {} readerBetween noon)
    (fun cfg => (cfg.world.cached? (.dau 0)).isSome)
    (fun _ => rfl) (by decide) (by decide +kernel)
  obtain ⟨cached, hcached⟩ := Option.isSome_iff_exists.mp htest
  obtain ⟨row, hrow, heq⟩ :=
    cached_committed_of_undisturbed agreeing_noon hreach hrest 0 hcached
  exact ⟨cfg, cached, row, hreach, hcached, hrow, heq⟩

end EventAnalytics.Workers
