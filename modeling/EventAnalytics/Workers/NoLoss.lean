import EventAnalytics.Workers.Pass

/-! Whether a pass loses events. All messages of a pass share one transaction,
and a statement that the server rejects takes the rows inserted before it along,
although their messages are acknowledged after the commit. -/
namespace EventAnalytics.Workers

open Library Library.Discipline Redis

/-- The server rejects no `INSERT` of a transaction that has inserted a row. -/
def gentle : BackendPolicy where
  step i ch w c :=
    match ch, c with
    | .raiseAfter, .insertEvent .. => (w.ownRows i).isEmpty
    | _, _ => true
  crash := fun _ _ _ => true
  env := fun _ _ => true

def lossless : Terms := ⟨True, fun _ => True⟩

theorem lossless_respected (py : Python) (settings : Settings) (i : Nat) :
    lossless.Respected py settings gentle i where
  gentle := fun _ _ _ _ hadm => List.isEmpty_iff.mp hadm
  invalid := fun _ _ => trivial
  rejected := fun _ _ _ _ _ _ _ _ _ _ _ _ _ _ => trivial
  quiet := fun _ _ _ _ _ _ _ _ _ => trivial

def passes (py : Python) (settings : Nat → Settings) (w : World) :
    Config Cmd.Resp Exn World PassResult :=
  ⟨w, fun i => .ready (processEventStream py (settings i))⟩

theorem keeps_passes {py : Python} {settings : Nat → Settings} {terms : Terms}
    {π : BackendPolicy} {w : World} (hinv : Custody py terms w)
    (hrespected : ∀ i, terms.Respected py (settings i) π i) :
    (custody py terms π).Keeps (fun _ => ends (fun _ _ => True) fun _ _ => True)
      (passes py settings w) :=
  keeps_ready hinv _ fun i _ _ => wp_processEventStream (hrespected i)

/-- However passes overlap, fail and crash, every entry stays accounted for, and
what `ack_messages` is about to acknowledge is committed. -/
theorem accounted_of_gentle (py : Python) (settings : Nat → Settings) {w : World}
    (hfresh : Fresh w) {cfg : Config Cmd.Resp Exn World PassResult}
    (hreach : Reach backend gentle (passes py settings w) cfg) :
    (∀ id < cfg.world.stream.added.length, Accounted py cfg.world id) ∧
      ∀ i ids k, cfg.threads i = .running (.call (.xack ids .ackMessages) k) →
        ∀ id ∈ ids, Committed py cfg.world id := by
  have hkeeps := (keeps_passes (hfresh.custody py lossless)
    fun i => lossless_respected py (settings i) i).reach hreach
  refine ⟨hkeeps.inv.accounted trivial, fun i ids k hthread => ?_⟩
  have hok := hkeeps.threads i
  rw [hthread] at hok
  obtain ⟨hduty, -, -⟩ := hok _ (Later.refl hkeeps.inv)
  exact hduty.2 trivial

def goodText : String :=
  "\x7b\"event_id\": \"00000000-0000-0000-0000-000000000001\", \"user_id\": null, " ++
    "\"session_id\": \"s1\", \"event_type\": \"view\", \"properties\": \x7b\x7d, " ++
    "\"client_ts\": null, \"ip_hash\": null, \"user_agent\": null\x7d"

/-- Its session id is a NUL, which JSON can spell and PostgreSQL text cannot hold. -/
def badText : String :=
  "\x7b\"event_id\": \"00000000-0000-0000-0000-000000000002\", \"user_id\": null, " ++
    "\"session_id\": \"\\u0000\", \"event_type\": \"view\", \"properties\": \x7b\x7d, " ++
    "\"client_ts\": null, \"ip_hash\": null, \"user_agent\": null\x7d"

def mixedBatch : Python :=
  .ofTable
    [(goodText,
      [("event_id", .str "00000000-0000-0000-0000-000000000001"), ("user_id", .null),
        ("session_id", .str "s1"), ("event_type", .str "view"), ("properties", .obj []),
        ("client_ts", .null), ("ip_hash", .null), ("user_agent", .null)]),
      (badText,
      [("event_id", .str "00000000-0000-0000-0000-000000000002"), ("user_id", .null),
        ("session_id", .str "\x00"), ("event_type", .str "view"), ("properties", .obj []),
        ("client_ts", .null), ("ip_hash", .null), ("user_agent", .null)])]
    [("00000000-0000-0000-0000-000000000001", 1), ("00000000-0000-0000-0000-000000000002", 2)]

def queued (texts : List String) : World :=
  { World.init 0 with
    stream := texts.foldl (fun s text => (s.xadd ⟨some text⟩).2) Stream.empty }

/-- A pass over both entries: `n` commands succeed, one raises, the rest succeed. -/
def oneFault (n rest : Nat) (fault : Choice) : List (Act Choice EnvAct) :=
  .start 0 :: List.replicate n (.step 0 .ok) ++ .step 0 fault ::
    List.replicate rest (.step 0 .ok)

/-- The first event is inserted, the second rejected. The commit rolls both back
without a word, and the first message is acknowledged: it is nowhere any more. -/
theorem lost_in_mixed_batch :
    ¬ ∀ cfg, Reach backend .any (passes mixedBatch (fun _ => {}) (queued [goodText, badText])) cfg →
      ∀ id < cfg.world.stream.added.length, Accounted mixedBatch cfg.world id := by
  intro h
  obtain ⟨cfg, hreach, htest⟩ := exists_reach_of_run (M := backend) (π := .any)
    (oneFault 7 6 .raiseAfter) (passes mixedBatch (fun _ => {}) (queued [goodText, badText]))
    (fun cfg => decide (cfg.world.stream.added.length = 2 ∧ cfg.world.stream.delivered = 2 ∧
      cfg.world.stream.pel.map Pending.id = [1] ∧ cfg.world.dlq.length = 0 ∧
      cfg.world.events.length = 0)) (by decide +kernel)
  simp only [decide_eq_true_eq, List.length_eq_zero_iff] at htest
  obtain ⟨hadded, hdelivered, hpel, hdlq, hevents⟩ := htest
  rcases h cfg hreach 0 (by omega) with hu | ⟨p, hp, hid⟩ | ⟨d, hd, -⟩ | ⟨_, e, -, -, he⟩
  · have := hu.1
    omega
  · have hmem := List.mem_map_of_mem (f := Pending.id) hp
    rw [hpel, hid] at hmem
    cases hmem with
    | tail _ hmem => cases hmem
  · simp [hdlq] at hd
  · simp [World.stored, hevents] at he

theorem accounted_of_gentle_two_inserted :
    ∃ cfg, Reach backend gentle (passes mixedBatch (fun _ => {}) (queued [goodText, badText])) cfg ∧
      (cfg.world.stream.pel.length = 0 ∧ cfg.world.events.length = 2) ∧
      (∀ id < cfg.world.stream.added.length, Accounted mixedBatch cfg.world id) ∧
      ∀ i ids k, cfg.threads i = .running (.call (.xack ids .ackMessages) k) →
        ∀ id ∈ ids, Committed mixedBatch cfg.world id := by
  obtain ⟨cfg, hreach, htest⟩ := exists_reach_of_run (M := backend) (π := gentle)
    (oneFault 7 7 .ok) (passes mixedBatch (fun _ => {}) (queued [goodText, badText]))
    (fun cfg => decide (cfg.world.stream.pel.length = 0 ∧ cfg.world.events.length = 2))
    (by decide +kernel)
  exact ⟨cfg, hreach, of_decide_eq_true htest,
    accounted_of_gentle mixedBatch (fun _ => {}) ⟨rfl, rfl, rfl, rfl⟩ hreach⟩

end EventAnalytics.Workers
