import EventAnalytics.Api.Provenance
import EventAnalytics.Library.Stuttering

/-! How the processes come up: `ensure_consumer_group` of `app/mq/streams.py`, `lifespan` of
`app/main.py`, `startup` of `app/workers/tasks.py` and `scripts/ensure_stream.py`. What is
served is what the backend serves whose group has been there from the beginning. -/
namespace EventAnalytics.Api

open Library Library.Discipline Redis

inductive StartCmd
  /-- `XGROUP CREATE event_stream_name event_consumer_group 0 MKSTREAM`. -/
  | xgroupCreate
  /-- `XLEN event_dlq_stream_name`. -/
  | xlenDlq
  /-- The end of the `on_startup` of worker process `k`. -/
  | started (k : Nat)
  /-- Worker process `k` takes a job, which it does only after its `on_startup`. -/
  | polls (k : Nat)

abbrev StartCmd.Resp : StartCmd → Type
  | xlenDlq => Nat
  | _ => Unit

abbrev StartApp (α : Type) := Prog (Both Cmd.Resp StartCmd.Resp) Exn α

abbrev start (x : StartCmd) : StartApp x.Resp :=
  Prog.perform (.inr x : Cmd ⊕ StartCmd)

/-- The server's one refusal is BUSYGROUP: the group exists. -/
def ensureConsumerGroup : StartApp Unit := do
  Prog.tryExcept (start .xgroupCreate) fun exc =>
    if exc = .responseError then pure () else .raise exc
  Prog.tryExcept (do let _ ← start .xlenDlq) fun _ => pure ()

/-- The API serves also when this has failed. -/
def lifespan : StartApp Unit :=
  Prog.tryExcept ensureConsumerGroup fun _ => pure ()

def startup (k : Nat) : StartApp Unit := do
  ensureConsumerGroup
  start (.started k)

/-- The stores, whether there is a group, and the worker processes that have started. -/
structure Deployment where
  world : World
  group : Bool
  started : List Nat

/-- Reading from `0`, nothing is delivered and nothing pending. -/
def fromZero (s : Stream) : Stream where
  added := s.added
  deleted := s.deleted
  delivered := 0
  pel := []
  delivered_le := Nat.zero_le _
  pel_sorted := Stream.empty.pel_sorted
  pel_delivered := Stream.empty.pel_delivered

def Deployment.createGroup (s : Deployment) : Deployment :=
  { s with group := true, world := { s.world with stream := fromZero s.world.stream } }

/-- What the server answers where there is no group: NOGROUP, or the groups of the stream,
when there is one. The other commands do not mention the group, or find nothing to do. -/
def groupless (w : World) : (c : Cmd) → Option (Except Exn c.Resp)
  | .xreadgroup .. => some (.error .responseError)
  | .xautoclaim .. => some (.error .responseError)
  | .xpendingRange _ => some (.error .responseError)
  | .xinfoGroups => some (if w.stream.added = [] then .error .responseError else .ok (0 : Nat))
  | _ => none

def startEffect (s : Deployment) : (x : StartCmd) → Option (Except Exn x.Resp × Deployment)
  | .xgroupCreate =>
    if s.group then some (.error .responseError, s) else some (.ok (), s.createGroup)
  | .xlenDlq => some (.ok s.world.dlq.length, s)
  | .started k => some (.ok (), { s with started := k :: s.started })
  | .polls k => if k ∈ s.started then some (.ok (), s) else none

/-- Only what goes to the server can fail. -/
def startExec (ch : Choice) (s : Deployment) :
    (x : StartCmd) → Option (Except Exn x.Resp × Deployment)
  | .xgroupCreate =>
    match ch with
    | .ok => startEffect s .xgroupCreate
    | .raiseBefore => some (.error .connectionError, s)
    | .raiseAfter => some (.error .connectionError, if s.group then s else s.createGroup)
  | .xlenDlq =>
    match ch with
    | .ok => startEffect s .xlenDlq
    | _ => some (.error .connectionError, s)
  | x => startEffect s x

def deployment : Machine (Both Cmd.Resp StartCmd.Resp) Exn Deployment Choice EnvAct where
  exec
    | i, ch, s, .inl c =>
      match if s.group then none else groupless s.world c with
      | some r => some (if ch = .ok then r else .error c.fault, s)
      | none => (backend.exec i ch s.world c).map fun rw => (rw.1, { s with world := rw.2 })
    | _, ch, s, .inr x => startExec ch s x
  crash i s := { s with world := backend.crash i s.world }
  env e s := (backend.env e s.world).map fun w => { s with world := w }

/-- A process that dies while it starts has no transaction, and takes no further step. -/
def deployed (π : BackendPolicy) : Policy (Cmd ⊕ StartCmd) Deployment Choice EnvAct where
  step
    | i, ch, s, .inl c => π.step i ch s.world c
    | _, _, _, .inr _ => true
  crash
    | i, s, .inl c => π.crash i s.world c
    | _, _, .inr _ => false
  env e s := π.env e s.world

inductive Role
  | lifespan
  | startup (worker : Nat)
  | ensureStream
  | pass (worker : Nat)
  | single (request : Request) (body : EventCreate)
  | batch (request : Request) (events : List EventCreate)

/-- The task in the place of the thread; it is never begun for the first three. -/
def Role.task : Role → Task
  | .single request body => .single request body
  | .batch request events => .batch request events
  | _ => .pass

def serves (py : Python) (settings : Settings) (task : Task) : StartApp (Option Response) :=
  some <$> (task.run py settings).lift StartCmd.Resp

def Role.run (py : Python) (settings : Settings) : Role → StartApp (Option Response)
  | .lifespan => do
    Api.lifespan
    pure none
  | .startup worker => do
    Api.startup worker
    pure none
  | .ensureStream => do
    ensureConsumerGroup
    pure none
  | .pass worker => do
    start (.polls worker)
    serves py settings .pass
  | .single request body => serves py settings (.single request body)
  | .batch request events => serves py settings (.batch request events)

def deploy (py : Python) (settings : Nat → Settings) (roles : Nat → Role) (group : Bool)
    (w : World) : Config (Both Cmd.Resp StartCmd.Resp) Exn Deployment (Option Response) :=
  ⟨⟨w, group, []⟩, fun i => .ready ((roles i).run py (settings i))⟩

/-- The commands whose answer depends on whether there is a group. -/
def ofGroup : Cmd → Bool
  | .xreadgroup .. | .xautoclaim .. | .xpendingRange _ | .xinfoGroups => true
  | _ => false

/-- They are issued where there is one. -/
def grouped (s : Deployment) : Cmd ⊕ StartCmd → Bool
  | .inl c => !ofGroup c || s.group
  | .inr _ => true

section Exec

variable {i : Nat} {ch : Choice} {s s' : Deployment}

theorem deployment_exec {c : Cmd} (hc : grouped s (.inl c) = true) :
    deployment.exec i ch s (.inl c) =
      (backend.exec i ch s.world c).map fun rw => (rw.1, { s with world := rw.2 }) := by
  have hnone : (if s.group then none else groupless s.world c) = none := by
    cases hgroup : s.group with
    | true => rfl
    | false => cases c <;> first | rfl | simp [grouped, ofGroup, hgroup] at hc
  simp only [deployment, hnone]

theorem startExec_cases {x : StartCmd} {r : Except Exn x.Resp}
    (hexec : startExec ch s x = some (r, s')) :
    s' = s ∨ (x = .xgroupCreate ∧ s.group = false ∧ s' = s.createGroup) ∨
      ∃ k, x = .started k ∧ s' = { s with started := k :: s.started } := by
  cases x with
  | xgroupCreate =>
      have hcreate : s' = s ∨ s.group = false ∧ s' = s.createGroup := by
        cases ch <;> simp only [startExec, startEffect] at hexec
        · split at hexec <;> rename_i hgroup <;> cases hexec
          · exact .inl rfl
          · exact .inr ⟨by simpa using hgroup, rfl⟩
        · cases hexec
          exact .inl rfl
        · cases hexec
          split <;> rename_i hgroup
          · exact .inl rfl
          · exact .inr ⟨by simpa using hgroup, rfl⟩
      exact hcreate.imp_right fun h => .inl ⟨rfl, h⟩
  | xlenDlq =>
      left
      cases ch <;> cases hexec <;> rfl
  | started k =>
      cases hexec
      exact .inr (.inr ⟨k, rfl, rfl⟩)
  | polls k =>
      left
      simp only [startExec, startEffect] at hexec
      split at hexec <;> cases hexec
      rfl

theorem exec_serves {c : Cmd} {r : Except Exn c.Resp}
    (hexec : deployment.exec i ch s (.inl c) = some (r, s')) :
    ∃ w, s' = { s with world := w } := by
  simp only [deployment] at hexec
  split at hexec
  · cases hexec
    exact ⟨s.world, rfl⟩
  · obtain ⟨rw, -, hs⟩ := Option.map_eq_some_iff.mp hexec
    cases hs
    exact ⟨rw.2, rfl⟩

theorem exec_group {c : Cmd ⊕ StartCmd} {r : Except Exn (Both Cmd.Resp StartCmd.Resp c)}
    (hexec : deployment.exec i ch s c = some (r, s')) (hgroup : s.group = true) :
    s'.group = true := by
  cases c with
  | inl c =>
      obtain ⟨w, rfl⟩ := exec_serves hexec
      exact hgroup
  | inr x =>
      rcases startExec_cases hexec with rfl | ⟨-, -, rfl⟩ | ⟨k, -, rfl⟩
      · exact hgroup
      · rfl
      · exact hgroup

end Exec

def startDuty (s : Deployment) : Cmd ⊕ StartCmd → Prop
  | .inl c => grouped s (.inl c) = true
  | .inr (.started _) => s.group = true
  | .inr _ => True

/-- The agreement: workers have started only where there is a group, and it stays. -/
def starting (π : BackendPolicy) :
    Discipline (Both Cmd.Resp StartCmd.Resp) Exn Deployment Choice EnvAct where
  machine := deployment
  policy := deployed π
  inv s := s.started ≠ [] → s.group = true
  rely _ s s' := s.group = true → s'.group = true
  duty _ := startDuty
  rely_refl _ _ := id
  rely_trans _ _ _ _ hab hbc := hbc ∘ hab
  step_sound i ch s c r s' _ hinv hduty hexec := by
    refine ⟨?_, fun j _ => exec_group hexec⟩
    cases c with
    | inl c =>
        obtain ⟨w, rfl⟩ := exec_serves hexec
        exact hinv
    | inr x =>
        rcases startExec_cases hexec with rfl | ⟨-, -, rfl⟩ | ⟨k, rfl, rfl⟩
        · exact hinv
        · exact fun _ => rfl
        · exact fun _ => hduty
  crash_sound _ _ _ _ hinv := ⟨hinv, fun _ _ => id⟩
  env_sound e s s' _ hinv henv := by
    obtain ⟨w, -, rfl⟩ := Option.map_eq_some_iff.mp henv
    exact ⟨hinv, fun _ => id⟩

section Roles

variable {π : BackendPolicy} {i : Nat} {s : Deployment} {py : Python} {settings : Settings}

theorem wp_grouped {α : Type} (p : StartApp α) (hinv : (starting π).inv s)
    (hgroup : s.group = true) : (starting π).wp i p (fun _ s' => s'.group = true) s := by
  refine wp_mono (fun _ _ h => h.2) (wp_issues (N := fun _ => True)
    (I := fun s' => (starting π).inv s' ∧ s'.group = true) (Prog.issues_any p) ?_ ?_ ?_
    ⟨hinv, hgroup⟩)
  · intro c s' _ h
    cases c with
    | inl c => simp [starting, startDuty, grouped, h.2]
    | inr x => cases x <;> first | exact h.2 | trivial
  · exact fun c s' _ h _ s'' hs'' => ⟨hs''.1, hs''.2 h.2⟩
  · exact fun c s' ch r s₁ _ h _ hexec s'' hs'' => ⟨hs''.1, hs''.2 (exec_group hexec h.2)⟩

theorem group_of_create {ch : Choice} {s' : Deployment} {r : Except Exn Unit}
    (hexec : startExec ch s .xgroupCreate = some (r, s'))
    (hr : r ≠ .error .connectionError) : s'.group = true := by
  cases ch with
  | ok =>
      simp only [startExec, startEffect] at hexec
      split at hexec <;> rename_i hgroup <;> cases hexec
      · exact hgroup
      · rfl
  | raiseBefore =>
      cases hexec
      exact absurd rfl hr
  | raiseAfter =>
      cases hexec
      exact absurd rfl hr

theorem wp_ensureConsumerGroup (hinv : (starting π).inv s) :
    (starting π).wp i ensureConsumerGroup
      (ends (fun _ s' => s'.group = true) fun _ _ => True) s := by
  have hcreate : (starting π).wp i (start .xgroupCreate)
      (ends (fun _ s' => s'.group = true) fun exc s' =>
        exc ≠ .connectionError → s'.group = true) s := by
    refine wp_perform trivial (fun _ _ _ => trivial) fun ch r s₁ _ hexec s₂ hs₂ => ?_
    have hgroup : r ≠ .error .connectionError → s₂.group = true := fun hr =>
      hs₂.2 (group_of_create hexec hr)
    cases r with
    | ok a => exact hgroup (by simp)
    | error exc => exact fun hexc => hgroup fun h => hexc (Except.error.inj h)
  have hfound : (starting π).wp i (Prog.tryExcept (start .xgroupCreate) fun exc =>
      if exc = .responseError then pure () else .raise exc)
      (ends (fun _ s' => s'.group = true) fun _ _ => True) s := by
    refine wp_try hcreate fun exc s₁ h₁ => ?_
    split
    · rename_i hbusy
      exact h₁ (by rw [hbusy]; decide)
    · trivial
  unfold ensureConsumerGroup
  refine wp_seq (S := fun _ s' => (starting π).inv s' ∧ s'.group = true) ?_ fun _ s₁ h₁ => ?_
  · refine wp_mono (fun o s' h => ?_) (wp_inv hinv hfound)
    cases o with
    | ok a => exact ⟨h.2, h.1⟩
    | error exc => trivial
    | crashed => trivial
  · refine wp_mono (fun o s' h => ?_) (wp_grouped _ h₁.1 h₁.2)
    cases o <;> first | exact h | trivial

theorem safe_ensureConsumerGroup : (starting π).Safe i ensureConsumerGroup := fun _ hinv =>
  wp_mono (fun _ _ h => h.2) (wp_inv hinv (wp_ensureConsumerGroup hinv))

theorem safe_startup (k : Nat) : (starting π).Safe i (Api.startup k) := by
  intro s hinv
  have hstartup : (starting π).wp i (Api.startup k) (ends (fun _ _ => True) fun _ _ => True) s := by
    unfold Api.startup
    refine wp_seq (S := fun _ s' => (starting π).inv s' ∧ s'.group = true) ?_ fun _ s₁ h₁ =>
      wp_perform_any h₁.2
    refine wp_mono (fun o s' h => ?_) (wp_inv hinv (wp_ensureConsumerGroup hinv))
    cases o with
    | ok a => exact ⟨h.2, h.1⟩
    | error exc => trivial
    | crashed => trivial
  exact wp_mono (fun _ _ h => h.2) (wp_inv hinv hstartup)

theorem issues_lift {α : Type} {p : App α} {N : Cmd → Prop} {N' : Cmd ⊕ StartCmd → Prop}
    (hp : p.Issues N) (hN : ∀ c, N c → N' (.inl c)) :
    (p.lift StartCmd.Resp).Issues N' := by
  induction p with
  | ret a => trivial
  | raise exc => trivial
  | call c k ih => exact ⟨hN c hp.1, fun r => ih r (hp.2 r)⟩

theorem safe_request {task : Task} (htask : task ≠ .pass) :
    (starting π).Safe i (serves py settings task) := by
  have hissues : (task.run py settings).Issues fun c => ofGroup c = false := by
    refine issues_request (fun c hc => ?_) (fun post _ => ⟨fun _ => rfl, rfl⟩) htask
    cases c <;> first | rfl | cases hc
  have hlift : ((task.run py settings).lift StartCmd.Resp).Issues fun c =>
      ∀ s, startDuty s c := by
    refine issues_lift hissues fun c hc s => ?_
    simp [startDuty, grouped, hc]
  unfold serves
  rw [Prog.map_eq]
  exact Safe.bind (safe_issues hlift fun c s hc _ => hc s) fun _ => safe_ret _

theorem safe_role (role : Role) : (starting π).Safe i (role.run py settings) := by
  cases role with
  | lifespan =>
      exact Safe.bind (Safe.tryExcept safe_ensureConsumerGroup fun _ => safe_ret _)
        fun _ => safe_ret _
  | startup k => exact Safe.bind (safe_startup k) fun _ => safe_ret _
  | ensureStream => exact Safe.bind safe_ensureConsumerGroup fun _ => safe_ret _
  | pass k =>
      refine safe_call (fun _ _ => trivial) fun s ch _ s₁ s₂ hinv hexec hlater => ?_
      have hstarted : s₁.group = true := by
        change startExec ch s (.polls k) = some (_, s₁) at hexec
        simp only [startExec, startEffect] at hexec
        split at hexec <;> rename_i hk <;> cases hexec
        exact hinv (List.ne_nil_of_mem hk)
      exact wp_mono (fun _ _ h => h.2)
        (wp_inv hlater.1 (wp_grouped _ hlater.1 (hlater.2 hstarted)))
  | single request body => exact safe_request (by simp)
  | batch request events => exact safe_request (by simp)

end Roles

/-- Of this stream no group has read anything. -/
def Unread (s : Stream) : Prop := s.delivered = 0 ∧ s.pel = []

theorem fromZero_eq {s : Stream} (h : Unread s) : fromZero s = s := by
  obtain ⟨added, deleted, delivered, pel, _, _, _⟩ := s
  obtain ⟨rfl, rfl⟩ := h
  rfl

theorem exec_unread {i : Nat} {ch : Choice} {w w' : World} {c : Cmd} {r : Except Exn c.Resp}
    (hc : ofGroup c = false) (hexec : backend.exec i ch w c = some (r, w'))
    (h : Unread w.stream) : Unread w'.stream := by
  by_cases hquiet : c.quiet = true
  · rwa [(exec_quiet hquiet hexec).stream]
  cases c <;> simp only [Cmd.quiet, not_true_eq_false] at hquiet
  case xreadgroup | xautoclaim => cases hc
  case insertEvent row origin =>
    rcases exec_insertEvent hexec with ⟨-, -, -, -, -, -, rfl⟩ | ⟨-, -, -, -, rfl⟩ |
      ⟨-, rfl, -⟩ | ⟨-, rfl, -⟩ <;> exact h
  case selectEvent e => rcases exec_selectEvent hexec with rfl | ⟨rfl, -⟩ <;> exact h
  case commit => rcases exec_commit hexec with rfl | ⟨rfl, -⟩ <;> exact h
  case rollback =>
    rw [exec_rollback hexec]
    exact h
  case xack ids acker =>
    rcases exec_stream rfl rfl rfl hexec with ⟨rfl, -⟩ | ⟨rfl, -⟩
    · exact h
    · refine ⟨h.1, ?_⟩
      change w.stream.pel.filter _ = []
      rw [h.2]
      rfl
  all_goals rcases exec_stream rfl rfl rfl hexec with ⟨rfl, -⟩ | ⟨rfl, -⟩ <;> exact h

def letIn : (x : StartCmd) → Except Exn x.Resp → Prop
  | .polls _, r => r = .ok ()
  | _, _ => True

/-- The stores are the same, and no group is as good as one that has read nothing. -/
def Serving (s : Deployment) (w : World) : Prop :=
  s.world = w ∧ (s.group = false → Unread w.stream)

theorem deployment_surrounds (π : BackendPolicy) :
    Surrounds deployment ((deployed π).guarded grouped) backend π letIn Serving where
  exec := by
    rintro i ch s _ c r s' ⟨rfl, hunread⟩ hadm hexec
    obtain ⟨hadm, hgrouped⟩ := Bool.and_eq_true_iff.mp hadm
    rw [deployment_exec hgrouped] at hexec
    obtain ⟨⟨r', w⟩, hstep, hs⟩ := Option.map_eq_some_iff.mp hexec
    cases hs
    refine ⟨w, hadm, hstep, rfl, fun hgroup => ?_⟩
    have hgroup : s.group = false := hgroup
    have hc : ofGroup c = false := by simpa [grouped, hgroup] using hgrouped
    exact exec_unread hc hstep (hunread hgroup)
  extra := by
    rintro i ch s _ x r s' ⟨rfl, hunread⟩ - hexec
    change startExec ch s x = some (r, s') at hexec
    refine ⟨?_, ?_⟩
    · cases x with
      | polls k =>
          simp only [startExec, startEffect] at hexec
          split at hexec <;> cases hexec
          rfl
      | _ => trivial
    · rcases startExec_cases hexec with rfl | ⟨-, hgroup, rfl⟩ | ⟨k, -, rfl⟩
      · exact ⟨rfl, hunread⟩
      · refine ⟨?_, fun h => by cases h⟩
        rw [Deployment.createGroup, fromZero_eq (hunread hgroup)]
      · exact ⟨rfl, hunread⟩
  crash := by
    rintro i s _ c ⟨rfl, hunread⟩ hadm
    exact ⟨hadm, rfl, hunread⟩
  crash_extra := rfl
  env := by
    rintro e s _ s' ⟨rfl, hunread⟩ hadm henv
    obtain ⟨w, hstep, rfl⟩ := Option.map_eq_some_iff.mp henv
    refine ⟨w, hadm, hstep, rfl, fun hgroup => ?_⟩
    have hkept := hunread hgroup
    cases e <;> cases hstep <;> exact hkept

theorem covers_role (py : Python) (settings : Settings) (role : Role) :
    (Thread.ready (role.run py settings)).Covers letIn some
      (.ready (role.task.run py settings)) := by
  have haside : ∀ {p : StartApp Unit}, (p.Issues fun c => c.isRight = true) →
      (Thread.ready (do p; pure (none : Option Response) : StartApp (Option Response))).Covers
        letIn some (.ready (role.task.run py settings)) := by
    intro p hp
    refine .aside (Prog.Relays.bind (R := fun _ => True) (hp.relays fun _ => trivial) ?_)
    exact fun _ _ a h => by cases h
  have hensure : ensureConsumerGroup.Issues fun c => c.isRight = true := by
    unfold ensureConsumerGroup
    refine Prog.Issues.bind (Prog.Issues.tryExcept (Prog.issues_perform rfl) fun exc => ?_)
      fun _ => Prog.Issues.tryExcept (Prog.Issues.bind (Prog.issues_perform rfl)
        fun _ => trivial) fun _ => trivial
    split <;> trivial
  cases role with
  | lifespan => exact haside (Prog.Issues.tryExcept hensure fun _ => trivial)
  | startup k => exact haside (Prog.Issues.bind hensure fun _ => Prog.issues_perform rfl)
  | ensureStream => exact haside hensure
  | pass k =>
      refine .ready (.extra fun r hr => ?_)
      have hr : r = .ok () := hr
      subst hr
      exact Prog.covers_lift _
  | single request body => exact .ready (Prog.covers_lift _)
  | batch request events => exact .ready (Prog.covers_lift _)

/-- However API and worker processes come up, fail to and come up again: they serve what
the backend serves that has had its group from the beginning, and no worker ever misses it. -/
theorem deployment_serves (py : Python) (settings : Nat → Settings) (roles : Nat → Role)
    (π : BackendPolicy) {group : Bool} {w : World} (hgroup : group = false → Unread w.stream)
    {cfg : Config (Both Cmd.Resp StartCmd.Resp) Exn Deployment (Option Response)}
    (hreach : Reach deployment (deployed π) (deploy py settings roles group w) cfg) :
    (∃ cfg₀, Reach backend π (service py settings (fun i => (roles i).task) w) cfg₀ ∧
      cfg₀.world = cfg.world.world ∧
      ∀ i res, (cfg.threads i).result? = some (some res) →
        (cfg₀.threads i).result? = some res) ∧
    ∀ i c, (cfg.threads i).command? = some (.inl c) → ofGroup c = true →
      cfg.world.group = true := by
  have hkeeps := keeps_ready (D := starting π) (Q := fun _ _ => (starting π).inv)
    (w := ⟨w, group, []⟩) (fun h => absurd rfl h) (fun i => (roles i).run py (settings i))
    fun i s hs => safe_role (roles i) s hs.1
  have hguarded := hkeeps.guarded (g := grouped) (fun i s c hduty => by
    cases c with
    | inl c => exact hduty
    | inr x => rfl) hreach
  refine ⟨?_, fun i c hcommand hc => ?_⟩
  · have hstart : Covered letIn some Serving (deploy py settings roles group w)
        (service py settings (fun i => (roles i).task) w) :=
      ⟨⟨rfl, hgroup⟩, fun i => covers_role py (settings i) (roles i)⟩
    obtain ⟨cfg₀, hreach₀, hcovered⟩ := (deployment_surrounds π).reach hstart hguarded
    refine ⟨cfg₀, hreach₀, hcovered.worlds.1.symm, fun i res hres => ?_⟩
    exact (hcovered.threads i).result? (Option.some_injective _) hres
  · obtain ⟨k, hk⟩ := Thread.command?_eq_some.mp hcommand
    have hduty := (hkeeps.reach hreach).duty hk
    simpa [starting, startDuty, grouped, hc] using hduty

/-- An event is posted while nothing but the API is up. -/
def comingUp (i : Nat) : Role :=
  if i = 0 then
    .single ⟨some "10.0.0.1", none, some "curl", "u1"⟩
      { eventId := 1, sessionId := "s1", eventType := .view,
        properties := [("page", .str "/")] }
  else if i = 1 then .lifespan
  else if i = 2 then .startup 0
  else .pass 0

set_option maxRecDepth 10000 in
theorem deployment_serves_late_group :
    ∃ cfg, Reach deployment (deployed noProducers)
        (deploy viewPython (fun _ => {}) comingUp false (World.init 0)) cfg ∧
      cfg.world.world.events.map EventRow.eventId = [1] ∧
      ∃ cfg₀, Reach backend noProducers
          (service viewPython (fun _ => {}) (fun i => (comingUp i).task) (World.init 0)) cfg₀ ∧
        cfg₀.world = cfg.world.world := by
  obtain ⟨cfg, hreach, htest⟩ := exists_reach_of_run (M := deployment)
    (π := deployed noProducers)
    (.start 1 :: .step 1 .raiseBefore :: .start 0 :: List.replicate 13 (.step 0 .ok) ++
      .env (.tick 60) :: .start 2 :: List.replicate 3 (.step 2 .ok) ++
      .start 3 :: List.replicate 13 (.step 3 .ok))
    (deploy viewPython (fun _ => {}) comingUp false (World.init 0))
    (fun cfg => cfg.world.world.events.map EventRow.eventId = [1]) (by decide +kernel)
  obtain ⟨⟨cfg₀, hreach₀, hworld, -⟩, -⟩ :=
    deployment_serves _ _ comingUp noProducers (fun _ => ⟨rfl, rfl⟩) hreach
  exact ⟨cfg, hreach, of_decide_eq_true htest, cfg₀, hreach₀, hworld⟩

end EventAnalytics.Api
