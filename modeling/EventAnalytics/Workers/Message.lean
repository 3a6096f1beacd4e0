import EventAnalytics.Frame
import EventAnalytics.Library.Footprint
import EventAnalytics.Workers.Tasks

/-! One message in the hands of a worker that nothing interferes with: which
commands persisting it can issue, and what dead-lettering it does. -/
namespace EventAnalytics.Workers

open Library Library.Discipline Redis

def ofPersist : Cmd → Bool
  | .now | .insertEvent .. | .pfadd .. | .expireHll .. | .setDone .. => true
  | _ => false

theorem issues_countUser (inserted : Bool) (row : EventRow) :
    (countUser inserted row).Issues fun c => ofPersist c = true := by
  unfold countUser
  split
  · refine Prog.Issues.bind (Prog.issues_perform rfl) fun _ => ?_
    exact Prog.Issues.bind (Prog.issues_perform rfl) fun _ => Prog.issues_perform rfl
  · trivial

theorem issues_persistRow (settings : Settings) (origin : Origin) (make : Nat → EventRow) :
    (persistRow settings origin make).Issues fun c => ofPersist c = true := by
  unfold persistRow
  refine Prog.Issues.bind (Prog.issues_perform rfl) fun serverTs => ?_
  refine Prog.Issues.bind (Prog.issues_perform rfl) fun inserted => ?_
  refine Prog.Issues.bind (issues_countUser _ _) fun _ => ?_
  exact Prog.Issues.bind (Prog.issues_perform rfl) fun _ => trivial

theorem issues_persistEvent (py : Python) (settings : Settings) (origin : Origin) (data : Dict) :
    (persistEvent py settings origin data).Issues fun c => ofPersist c = true := by
  unfold persistEvent
  refine Prog.Issues.bind (Prog.issues_ofExcept _) fun decoded => ?_
  cases decoded with
  | invalid => trivial
  | row make => exact issues_persistRow settings origin make

theorem exec_dlq {i : Nat} {ch : Choice} {w w' : World} {c : Cmd} {r : Except Exn c.Resp}
    (hpersist : ofPersist c = true) (hexec : backend.exec i ch w c = some (r, w')) :
    w'.dlq = w.dlq ∧ w'.stream = w.stream := by
  by_cases hquiet : c.quiet = true
  · exact ⟨(exec_quiet hquiet hexec).dlq, (exec_quiet hquiet hexec).stream⟩
  cases c <;> simp only [ofPersist, Cmd.quiet, not_true_eq_false, Bool.false_eq_true]
    at hpersist hquiet
  rcases exec_insertEvent hexec with ⟨-, -, -, -, -, -, rfl⟩ | ⟨-, -, -, -, rfl⟩ |
    ⟨-, rfl, -⟩ | ⟨-, rfl, -⟩ <;> exact ⟨rfl, rfl⟩

structure Lettered (id : Nat) (w w' : World) : Prop where
  posted : ∃ letter : DeadLetter, letter.originalId = id ∧ w'.dlq = w.dlq ++ [letter]
  acked : ¬ w'.stream.IsPending id

/-- What dead-lettering has to write reaches Redis. Anything else may fail. -/
def lettersPosted : BackendPolicy where
  step _ ch _ c :=
    match c with
    | .xaddDlq _ | .xack .. => ch = .ok
    | _ => true
  crash := fun _ _ _ => false
  env := fun _ _ => false

section Letters

variable {py : Python} {settings : Settings} {i id n : Nat} {w₀ w : World}

theorem wp_deadLetter_posted (hdlq : w.dlq = w₀.dlq) (payload : Json) (reason : String) :
    (alone backend lettersPosted i).wp i (Mq.deadLetter py id payload reason n)
      (ends (fun _ w' => Lettered id w₀ w') fun _ _ => False) w := by
  unfold Mq.deadLetter
  refine wp_seq (S := fun _ w' => ∃ letter : DeadLetter, letter.originalId = id ∧
    w'.dlq = w₀.dlq ++ [letter]) (wp_alone ?_ ?_) ?_
  · intro ch _ w' hadm hexec
    cases of_decide_eq_true hadm
    cases hexec
    exact ⟨⟨id, reason, n, py.dumps payload⟩, rfl, by simp [hdlq]⟩
  · intro ch e w' hadm hexec
    cases of_decide_eq_true hadm
    cases hexec
  intro _ w hposted
  refine wp_seq (S := fun _ => Lettered id w₀) (wp_alone ?_ ?_) ?_
  · intro ch _ w' hadm hexec
    cases of_decide_eq_true hadm
    cases hexec
    refine ⟨hposted, ?_⟩
    rintro ⟨p, hp, hid⟩
    simp [Stream.xack, hid] at hp
  · intro ch e w' hadm hexec
    cases of_decide_eq_true hadm
    cases hexec
  intro _ w hlettered
  have hdel : ∀ {w' : World} {ch : Choice} {r : Except Exn Unit},
      backend.exec i ch w (.xdel id) = some (r, w') → Lettered id w₀ w' := by
    intro w' ch r hexec
    rcases exec_stream rfl rfl rfl hexec with ⟨rfl, -⟩ | ⟨rfl, -⟩
    · exact hlettered
    · exact ⟨hlettered.posted, hlettered.acked⟩
  exact wp_try (F := fun _ => Lettered id w₀)
    (wp_alone (fun _ _ _ _ hexec => hdel hexec) fun _ _ _ _ hexec => hdel hexec)
    fun _ _ h => h

theorem wp_deadLetterIfDue_posted (hdue : settings.eventMaxDeliveries ≤ n)
    (hdlq : w.dlq = w₀.dlq) (data : Dict) (reason : String) (acc : Progress) :
    (alone backend lettersPosted i).wp i (deadLetterIfDue py settings id data n reason acc)
      (ends (fun _ w' => Lettered id w₀ w') fun _ _ => False) w := by
  unfold deadLetterIfDue
  rw [if_pos hdue]
  exact wp_seq (wp_deadLetter_posted hdlq _ _) fun _ _ h => h

theorem wp_processMessage_posted (hdue : settings.eventMaxDeliveries ≤ n) (data : Dict)
    (acc : Progress) :
    (alone backend lettersPosted i).wp i (processMessage py settings (id, .obj data, n) acc)
      (ends (fun acc' w' => acc'.idsToAck = acc.idsToAck ++ [id] ∨ Lettered id w w')
        fun _ _ => False) w := by
  simp only [processMessage]
  split
  · exact wp_ends_mono (fun _ _ h => .inr h) (fun _ _ h => h)
      (wp_deadLetterIfDue_posted hdue rfl data _ acc)
  · refine wp_try (F := fun _ w' => w'.dlq = w.dlq) ?_ fun exc w' hdlq =>
      wp_ends_mono (fun _ _ h => .inr h) (fun _ _ h => h)
        (wp_deadLetterIfDue_posted hdue hdlq data _ acc)
    unfold handleMessage
    refine wp_seq (S := fun _ w' => w'.dlq = w.dlq) ?_ fun persisted w' hdlq => ?_
    · exact wp_alone_issues (issues_persistEvent py settings _ data)
        (fun c w' ch r w'' hc hdlq _ hexec => (exec_dlq hc hexec).1.trans hdlq) rfl
    · cases persisted with
      | invalid =>
          exact wp_ends_mono (fun _ _ h => .inr h) (fun _ _ h => h.elim)
            (wp_deadLetterIfDue_posted hdue hdlq data _ acc)
      | inserted => exact .inl rfl
      | conflict => exact .inl rfl

end Letters

end EventAnalytics.Workers
