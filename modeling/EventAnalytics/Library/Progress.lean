import EventAnalytics.Library.Relays

/-! Programs that never wait. Where each of its commands is answered at once, a thread
comes to its end by steps of its own, whatever the other threads are in the middle of. -/
namespace EventAnalytics.Library

variable {Cmd : Type} {Resp : Cmd → Type} {Err World Choice Env α β : Type}

namespace Prog

/-- Whatever its commands answer, the program issues at most `n` of them. -/
def Within : Prog Resp Err α → Nat → Prop
  | ret _, _ => True
  | raise _, _ => True
  | call _ k, n => 1 ≤ n ∧ ∀ r, (k r).Within (n - 1)

theorem within_ofExcept (r : Except Err α) (n : Nat) :
    (ofExcept r : Prog Resp Err α).Within n := by
  cases r <;> trivial

theorem within_perform (c : Cmd) : (perform c : Prog Resp Err (Resp c)).Within 1 :=
  ⟨Nat.le_refl 1, fun r => within_ofExcept r 0⟩

theorem Within.mono {p : Prog Resp Err α} {m n : Nat} (hp : p.Within m) (hmn : m ≤ n) :
    p.Within n := by
  induction p generalizing m n with
  | ret a => trivial
  | raise e => trivial
  | call c k ih => exact ⟨Nat.le_trans hp.1 hmn, fun r => ih r (hp.2 r) (by omega)⟩

theorem Within.bind {p : Prog Resp Err α} {f : α → Prog Resp Err β} {m n : Nat}
    (hp : p.Within m) (hf : ∀ a, (f a).Within n) : (p >>= f).Within (m + n) := by
  induction p generalizing m with
  | ret a => exact (hf a).mono (by omega)
  | raise e => trivial
  | call c k ih =>
      obtain ⟨hm, hk⟩ := hp
      refine ⟨by omega, fun r => (ih r (hk r)).mono ?_⟩
      omega

theorem Within.tryExcept {p : Prog Resp Err α} {h : Err → Prog Resp Err α} {m n : Nat}
    (hp : p.Within m) (hh : ∀ e, (h e).Within n) : (p.tryExcept h).Within (m + n) := by
  induction p generalizing m with
  | ret a => trivial
  | raise e => exact (hh e).mono (by omega)
  | call c k ih =>
      obtain ⟨hm, hk⟩ := hp
      refine ⟨by omega, fun r => (ih r (hk r)).mono ?_⟩
      omega

end Prog

theorem Thread.exists_call {t : Thread Resp Err α} (ht : t.inProgress = true) :
    ∃ c k, t = .running (.call c k) := by
  unfold Thread.inProgress at ht
  split at ht
  · exact ⟨_, _, rfl⟩
  · cases ht

/-- A running thread whose next step is possible wherever `P` holds, and keeps `P`, comes
to its end without the others, in as many steps as it has commands. -/
theorem Machine.exists_run_alone {M : Machine Resp Err World Choice Env}
    {π : Policy Cmd World Choice Env} {i : Nat} {ch : Choice} {P : Config Resp Err World α → Prop}
    (hstep : ∀ cfg, P cfg → (cfg.threads i).inProgress = true →
      π.admits cfg (.step i ch) = true ∧ ∃ next, M.step cfg (.step i ch) = some next ∧ P next)
    {cfg : Config Resp Err World α} (hP : P cfg) {p : Prog Resp Err α} {m : Nat}
    (hm : p.Within m) (hrunning : cfg.threads i = .running p) :
    ∃ n ≤ m, ∃ next, M.run π (List.replicate n (.step i ch)) cfg = some next ∧
      ∃ r, next.threads i = .running (Prog.ofExcept r) := by
  induction p generalizing cfg m with
  | ret a => exact ⟨0, Nat.zero_le m, cfg, rfl, .ok a, hrunning⟩
  | raise e => exact ⟨0, Nat.zero_le m, cfg, rfl, .error e, hrunning⟩
  | call c k ih =>
      obtain ⟨hadm, mid, hmid, hPmid⟩ := hstep cfg hP (by rw [hrunning]; rfl)
      have hnext : ∃ r, mid.threads i = .running (k r) := by
        simp only [Machine.step, hrunning] at hmid
        obtain ⟨rw, -, rfl⟩ := Option.map_eq_some_iff.mp hmid
        exact ⟨rw.1, setAt_self _ _ _⟩
      obtain ⟨r, hr⟩ := hnext
      obtain ⟨hpos, hrest⟩ := hm
      obtain ⟨n, hn, next, hrun, hend⟩ := ih r hPmid (hrest r) hr
      refine ⟨n + 1, by omega, next, ?_, hend⟩
      rw [List.replicate_succ, Machine.run, if_pos hadm, hmid]
      exact hrun

/-- What is left of the program of a thread, before it has crashed. -/
def Thread.All (I : Prog Resp Err α → Prop) : Thread Resp Err α → Prop
  | ready p => I p
  | running p => I p
  | crashed => True

/-- What a program passes on to its continuations holds of what is left of it in a run. -/
theorem Reach.hereditary {M : Machine Resp Err World Choice Env}
    {π : Policy Cmd World Choice Env} {I : Prog Resp Err α → Prop}
    (hI : ∀ c k, I (.call c k) → ∀ r, I (k r)) {a b : Config Resp Err World α}
    (hreach : Reach M π a b) {i : Nat} (ha : (a.threads i).All I) : (b.threads i).All I := by
  induction hreach with
  | refl => exact ha
  | @tail b c act _ _ hstep ih =>
      by_cases hact : act.thread? = some i
      · cases Machine.step_cases hstep with
        | start ht =>
            cases hact
            rw [ht] at ih
            simpa only [setAt_self, Thread.All] using ih
        | step ht hexec =>
            cases hact
            rw [ht] at ih
            simpa only [setAt_self, Thread.All] using hI _ _ ih _
        | crash ht =>
            cases hact
            simp only [setAt_self, Thread.All]
        | env henv => cases hact
      · rwa [Machine.step_threads_ne hstep hact]

namespace Discipline

variable {D : Discipline Resp Err World Choice Env} {i : Nat}

theorem wp_inv {p : Prog Resp Err α} {Q : Outcome Err α → World → Prop} {w : World}
    (hinv : D.inv w) (hp : D.wp i p Q w) : D.wp i p (fun o w' => Q o w' ∧ D.inv w') w := by
  induction p generalizing w with
  | ret a => exact ⟨hp, hinv⟩
  | raise e => exact ⟨hp, hinv⟩
  | call c k ih =>
      obtain ⟨hduty, hcrash, hstep⟩ := hp
      refine ⟨hduty, fun hadm w' hw' => ⟨hcrash hadm w' hw', hw'.1⟩, ?_⟩
      exact fun ch r w' hadm hexec w'' hw'' => ih r hw''.1 (hstep ch r w' hadm hexec w'' hw'')

/-- Begun where the invariant holds, the program issues its commands under their duty. -/
def Safe (D : Discipline Resp Err World Choice Env) (i : Nat) (p : Prog Resp Err α) : Prop :=
  ∀ w, D.inv w → D.wp i p (fun _ => D.inv) w

theorem safe_ret (a : α) : D.Safe i (.ret a : Prog Resp Err α) := fun _ hinv => hinv

theorem safe_perform {c : Cmd} (hduty : ∀ w, D.inv w → D.duty i w c) :
    D.Safe i (.perform c) := fun w hinv =>
  wp_perform (hduty w hinv) (fun _ _ hw' => hw'.1) fun _ _ _ _ _ _ hw'' => hw''.1

theorem Safe.bind {p : Prog Resp Err α} {f : α → Prog Resp Err β} (hp : D.Safe i p)
    (hf : ∀ a, D.Safe i (f a)) : D.Safe i (p >>= f) := by
  intro w hinv
  refine wp_bind (wp_mono (fun o w' hw' => ?_) (hp w hinv))
  cases o with
  | ok a => exact hf a w' hw'
  | error e => exact hw'
  | crashed => exact hw'

theorem Safe.tryExcept {p : Prog Resp Err α} {h : Err → Prog Resp Err α} (hp : D.Safe i p)
    (hh : ∀ e, D.Safe i (h e)) : D.Safe i (p.tryExcept h) := by
  intro w hinv
  refine wp_tryExcept (wp_mono (fun o w' hw' => ?_) (hp w hinv))
  cases o with
  | ok a => exact hw'
  | error e => exact hh e w' hw'
  | crashed => exact hw'

theorem safe_call {c : Cmd} {f : Resp c → Prog Resp Err α}
    (hduty : ∀ w, D.inv w → D.duty i w c)
    (hok : ∀ w ch a w' w'', D.inv w → D.machine.exec i ch w c = some (.ok a, w') →
      D.Later i w' w'' → D.wp i (f a) (fun _ => D.inv) w'') :
    D.Safe i (.perform c >>= f) := fun w hinv =>
  wp_perform_bind (hduty w hinv) (fun _ _ hw' => hw'.1) (fun _ _ _ _ _ _ hw'' => hw''.1)
    fun ch a w' _ hexec w'' hw'' => hok w ch a w' w'' hinv hexec hw''

/-- Where `J` holds, and stays, every command that the program issues is under its duty. -/
theorem wp_issues_inv {p : Prog Resp Err α} {N : Cmd → Prop} {J : World → Prop}
    (hp : p.Issues N) (hduty : ∀ c w, N c → D.inv w → J w → D.duty i w c)
    (hJ : ∀ c w ch r w', D.machine.exec i ch w c = some (r, w') → J w → J w')
    (hrely : ∀ w w', D.rely i w w' → J w → J w') {w : World} (hinv : D.inv w) (hj : J w) :
    D.wp i p (fun _ => D.inv) w := by
  induction p generalizing w with
  | ret a => exact hinv
  | raise e => exact hinv
  | call c k ih =>
      refine ⟨hduty c w hp.1 hinv hj, fun _ _ hw' => hw'.1, fun ch r w' _ hexec w'' hw'' => ?_⟩
      exact ih r (hp.2 r) hw''.1 (hrely _ _ hw''.2 (hJ c w ch r w' hexec hj))

theorem safe_issues {p : Prog Resp Err α} {N : Cmd → Prop} (hp : p.Issues N)
    (hduty : ∀ c w, N c → D.inv w → D.duty i w c) : D.Safe i p := fun _ hinv =>
  wp_issues_inv (J := fun _ => True) hp (fun c w hc hw _ => hduty c w hc hw)
    (fun _ _ _ _ _ _ _ => trivial) (fun _ _ _ _ => trivial) hinv trivial

/-- Its commands are under their duty as long as it is answered by `A`; from the first
other answer on, `J` holds, and any of its commands are. -/
theorem safe_relays {A : (c : Cmd) → Except Err (Resp c) → Prop} {N N' : Cmd → Prop}
    {R : α → Prop} {J : World → Prop} {p : Prog Resp Err α} (hp : p.Relays A N R)
    (hissues : p.Issues N') (hduty : ∀ c w, N c → D.inv w → D.duty i w c)
    (hduty' : ∀ c w, N' c → D.inv w → J w → D.duty i w c)
    (hanswer : ∀ c w ch r w', D.inv w → D.machine.exec i ch w c = some (r, w') → A c r ∨ J w')
    (hJ : ∀ c w ch r w', D.machine.exec i ch w c = some (r, w') → J w → J w')
    (hrely : ∀ w w', D.rely i w w' → J w → J w') : D.Safe i p := by
  intro w hinv
  induction p generalizing w with
  | ret a => exact hinv
  | raise e => exact hinv
  | call c k ih =>
      refine ⟨hduty c w hp.1 hinv, fun _ _ hw' => hw'.1, fun ch r w' _ hexec w'' hw'' => ?_⟩
      rcases hanswer c w ch r w' hinv hexec with hr | hj
      · exact ih r (hp.2 r hr) (hissues.2 r) w'' hw''.1
      · exact wp_issues_inv (hissues.2 r) hduty' hJ hrely hw''.1 (hrely _ _ hw''.2 hj)

end Discipline

end EventAnalytics.Library
