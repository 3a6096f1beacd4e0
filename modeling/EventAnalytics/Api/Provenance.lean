import EventAnalytics.Api.EventReads
import EventAnalytics.Api.Footprint

/-! Where the events that a reader is shown come from: the rows are traced back to the
requests, in both modes and through the stream. -/
namespace EventAnalytics.Api

open Library Library.Discipline Services Redis
open Workers (rowsInSight)

/-- Nobody but the requests adds to the stream. -/
def noProducers : BackendPolicy where
  step := fun _ _ _ _ => true
  crash := fun _ _ _ => true
  env
    | .tick _, _ => true
    | .produce _, _ => false

/-- What is known of the rows that are stored or about to be, and of the entries. -/
structure Sourced (P : EventRow → Prop) (S : Entry → Prop) (w : World) : Prop where
  rows : ∀ row ∈ rowsInSight w, P row
  entries : ∀ fields ∈ w.stream.added, S fields

def adds (P : EventRow → Prop) (S : Entry → Prop) : Cmd → Prop
  | .insertEvent row _ => P row
  | .xadd data => S ⟨some data⟩
  | _ => True

section Sourced

variable {P : EventRow → Prop} {S : Entry → Prop} {i : Nat} {w w' : World}

theorem Sourced.keep (h : Sourced P S w) (hrows : rowsInSight w' ⊆ rowsInSight w)
    (hentries : w'.stream.added = w.stream.added) : Sourced P S w' :=
  ⟨fun row hrow => h.rows row (hrows hrow), fun fields hfields =>
    h.entries fields (hentries ▸ hfields)⟩

theorem rowsInSight_drop (hevents : w'.events = w.events)
    (hdrop : w'.uncommitted = w.dropRows i) : rowsInSight w' ⊆ rowsInSight w := by
  unfold rowsInSight
  rw [hevents, hdrop]
  exact ((List.Sublist.refl _).append (List.filter_sublist.map _)).subset

theorem commitTx_subset (w : World) (i : Nat) : rowsInSight (w.commitTx i) ⊆ rowsInSight w := by
  cases haborted : w.aborted i with
  | true => exact rowsInSight_drop (by simp [World.commitTx, haborted]) rfl
  | false => exact (rowsInSight_commitTx haborted).subset

theorem Sourced.exec (h : Sourced P S w) {ch : Choice} {c : Cmd} {r : Except Exn c.Resp}
    (hadds : adds P S c) (hexec : backend.exec i ch w c = some (r, w')) : Sourced P S w' := by
  by_cases hquiet : c.quiet = true
  · have hsame := exec_quiet hquiet hexec
    apply h.keep
    · rw [rowsInSight, hsame.events, hsame.uncommitted, rowsInSight]
      exact List.Subset.refl _
    · rw [hsame.stream]
  cases c <;> simp only [Cmd.quiet, not_true_eq_false] at hquiet
  case insertEvent row origin =>
    rcases exec_insertEvent hexec with ⟨-, -, -, -, -, -, rfl⟩ | ⟨-, -, -, -, rfl⟩ |
      ⟨-, rfl, -⟩ | ⟨-, rfl, -⟩
    · refine ⟨fun row' hrow' => ?_, h.entries⟩
      simp only [rowsInSight, List.map_append, ← List.append_assoc] at hrow'
      rcases List.mem_append.mp hrow' with hold | hnew
      · exact h.rows row' hold
      · exact List.mem_singleton.mp hnew ▸ hadds
    · exact h
    · exact h
    · exact h.keep (rowsInSight_drop rfl rfl) rfl
  case selectEvent e =>
    rcases exec_selectEvent hexec with rfl | ⟨rfl, -⟩
    · exact h
    · exact h.keep (rowsInSight_drop rfl rfl) rfl
  case commit =>
    rcases exec_commit hexec with rfl | ⟨rfl, -⟩
    · exact h.keep (commitTx_subset w i) rfl
    · exact h
  case rollback =>
    rw [exec_rollback hexec]
    exact h.keep (rowsInSight_drop rfl rfl) rfl
  case xadd data =>
    rcases exec_stream rfl rfl rfl hexec with ⟨rfl, -⟩ | ⟨rfl, -⟩
    · exact h
    · refine ⟨h.rows, fun fields hfields => ?_⟩
      rcases List.mem_append.mp hfields with hold | hnew
      · exact h.entries fields hold
      · exact List.mem_singleton.mp hnew ▸ hadds
  all_goals
    rcases exec_stream rfl rfl rfl hexec with ⟨rfl, -⟩ | ⟨rfl, -⟩ <;>
      first | exact h | exact ⟨h.rows, h.entries⟩

theorem Sourced.hands (h : Sourced P S w) {ch : Choice} {c : Cmd} {r : Except Exn c.Resp}
    (hexec : backend.exec i ch w c = some (r, w')) : hands S c r := by
  cases c
  case xreadgroup consumer count =>
    rcases exec_stream rfl rfl rfl hexec with ⟨-, rfl⟩ | ⟨-, rfl | rfl⟩
    · trivial
    · exact fun entry hentry =>
        h.entries _ (List.mem_of_getElem? (Stream.mem_unread hentry).2.1)
    · trivial
  case xautoclaim consumer minIdle count =>
    rcases exec_stream rfl rfl rfl hexec with ⟨-, rfl⟩ | ⟨-, rfl | rfl⟩
    · trivial
    · intro entry hentry
      obtain ⟨id, -, hid⟩ := List.mem_filterMap.mp hentry
      obtain ⟨fields, hfields, rfl⟩ := Option.map_eq_some_iff.mp hid
      exact h.entries _ (List.mem_of_getElem? hfields)
    · trivial
  all_goals trivial

end Sourced

section Tasks

variable {py : Python} {tasks : Nat → Task} {w : World}
  (hposts : ∀ i, ∀ post ∈ (tasks i).posts, Workers.Enqueued py post.1 post.2.1 post.2.2)
include hposts

end Tasks

def viewPython : Python :=
  { Python.ofTable
      [("\x7b\"event_id\": \"00000000-0000-0000-0000-000000000001\", \"user_id\": null, " ++
          "\"session_id\": \"s1\", \"event_type\": \"view\", " ++
          "\"properties\": \x7b\"page\": \"/\"\x7d, \"client_ts\": null, \"ip_hash\": " ++
          "\"f5047344122f0dee9974ba6761e61c6b8649e1f3968d13a635ebbf7be53a3a0d\", " ++
          "\"user_agent\": \"curl\"\x7d",
        [("event_id", .str "00000000-0000-0000-0000-000000000001"), ("user_id", .null),
          ("session_id", .str "s1"), ("event_type", .str "view"),
          ("properties", .obj [("page", .str "/")]), ("client_ts", .null),
          ("ip_hash", .str "f5047344122f0dee9974ba6761e61c6b8649e1f3968d13a635ebbf7be53a3a0d"),
          ("user_agent", .str "curl")])]
      [("00000000-0000-0000-0000-000000000001", 1)] with
    sha256Hex := fun _ => "f5047344122f0dee9974ba6761e61c6b8649e1f3968d13a635ebbf7be53a3a0d" }

end EventAnalytics.Api
