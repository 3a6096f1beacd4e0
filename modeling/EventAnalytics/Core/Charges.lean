import EventAnalytics.Core.RateLimit
import EventAnalytics.Core.RetryHint
import EventAnalytics.Frame
import EventAnalytics.Library.Footprint

/-! What a rejected request takes from the quotas. The scopes are charged one after
the other, and a scope that let the request through is not given back when a later one
refuses. -/
namespace EventAnalytics.Core

open Library Redis

/-- A request to a limited route, with the draws of `uuid4` while it is checked. -/
structure Attempt where
  now : Nat
  clientHost : Option String
  userId : Option String
  eventWrite : Bool
  uuids : Nat → UUID

def Attempt.run (settings : Settings) (a : Attempt) (w : World) :
    Option (Except Exn (List (String × String)) × World) :=
  (enforceRateLimit settings a.clientHost a.userId a.eventWrite).run (effect 0)
    { w with clock := a.now, uuids := a.uuids, drawn := 0 }

def decisions (settings : Settings) : World → List Attempt → List Bool
  | _, [] => []
  | w, a :: later =>
    (a.run settings w).elim [] fun r => r.1.isOk :: decisions settings r.2 later

theorem decisions_cons {settings : Settings} {a : Attempt} {w w' : World}
    {r : Except Exn (List (String × String))} (hrun : a.run settings w = some (r, w'))
    (later : List Attempt) :
    decisions settings w (a :: later) = r.isOk :: decisions settings w' later := by
  rw [decisions, hrun, Option.elim_some]

def Attempt.ipKey (a : Attempt) : String := "rl:sw:ip:" ++ a.clientHost.getD "unknown"

/-- The member that the IP scope would add for the request. -/
def Attempt.ipMember (a : Attempt) : Member := toLex (a.now, hex8 (a.uuids 0))

def Attempt.ipCounted (settings : Settings) (a : Attempt) (w : World) : ZSet Member :=
  counted a.now a.now (settings.rateLimitWindowSeconds * 1000) (w.limiter a.ipKey)

/-- The IP window is full, so the first scope refuses. -/
def Attempt.IpFull (settings : Settings) (a : Attempt) (w : World) : Prop :=
  settings.rateLimitIp ≤ (a.ipCounted settings w).zcard

/-- Whatever requests follow from time `t` on, in order of time, they are decided in
`w'` as they are in `w`. -/
def SameLater (settings : Settings) (t : Nat) (w w' : World) : Prop :=
  ∀ later : List Attempt, (∀ b ∈ later, t ≤ b.now) →
    (later.Pairwise fun b c => b.now ≤ c.now) →
    decisions settings w' later = decisions settings w later

section Scope

variable {window limit now : Nat} {settings : Settings} {w w' : World}

def scopeReply (key : String) (limit windowSeconds : Nat) (w : World) : Reply × ZSet Member :=
  slidingWindow (w.limiter key) limit windowSeconds w.clock
    (toLex (w.clock, hex8 (w.uuids w.drawn)))

def charged (w : World) (key : String) (z : ZSet Member) : World :=
  { w with
    drawn := w.drawn + 1
    limiter := fun key' => if key' = key then z else w.limiter key' }

@[simp] theorem limiter_charged_self (key : String) (z : ZSet Member) :
    (charged w key z).limiter key = z :=
  if_pos rfl

theorem limiter_charged_ne {key key' : String} (z : ZSet Member) (h : key' ≠ key) :
    (charged w key z).limiter key' = w.limiter key' :=
  if_neg h

theorem run_slidingWindowCall (key : String) (limit windowSeconds : Nat) (w : World) :
    (slidingWindowCall key limit windowSeconds).run (effect 0) w =
      some (.ok (scopeReply key limit windowSeconds w).1,
        charged w key (scopeReply key limit windowSeconds w).2) := rfl

def scopeAnswer (scope title : String) (limit windowSeconds : Nat) (reply : Reply) :
    Except Exn (List (String × String)) :=
  if reply.allowed then .ok (scopeHeaders scope limit reply)
  else .error (rateLimitError (title ++ " rate limit exceeded (" ++ toString limit ++ "/" ++
    toString windowSeconds ++ "s)"))

@[simp] theorem isOk_scopeAnswer (scope title : String) (limit windowSeconds : Nat)
    (reply : Reply) : (scopeAnswer scope title limit windowSeconds reply).isOk = reply.allowed := by
  unfold scopeAnswer
  cases reply.allowed <;> rfl

theorem run_enforceScope (key scope title : String) (limit windowSeconds : Nat) (w : World) :
    (enforceScope key scope title limit windowSeconds).run (effect 0) w =
      some (scopeAnswer scope title limit windowSeconds (scopeReply key limit windowSeconds w).1,
        charged w key (scopeReply key limit windowSeconds w).2) := by
  unfold enforceScope scopeAnswer
  rw [Prog.run_bind_ok (run_slidingWindowCall key limit windowSeconds w)]
  cases (scopeReply key limit windowSeconds w).1.allowed <;> rfl

end Scope

section Lockstep

/-- From time `t` on the sets of the two worlds count the same. -/
def Agree (settings : Settings) (t : Nat) (w w' : World) : Prop :=
  ∀ key u, t ≤ u → counted u u (settings.rateLimitWindowSeconds * 1000) (w.limiter key) =
    counted u u (settings.rateLimitWindowSeconds * 1000) (w'.limiter key)

structure Twins (settings : Settings) (now : Nat) (w w' : World) : Prop where
  clock : w.clock = now
  clock' : w'.clock = now
  uuids : w.uuids = w'.uuids
  drawn : w.drawn = w'.drawn
  agree : Agree settings now w w'

variable {settings : Settings} {now : Nat} {w w' : World}

theorem slidingWindow_congr {limit windowSeconds : Nat} {z z' : ZSet Member} {member : Member}
    (h : counted now now (windowSeconds * 1000) z = counted now now (windowSeconds * 1000) z') :
    slidingWindow z limit windowSeconds now member =
      slidingWindow z' limit windowSeconds now member := by
  unfold slidingWindow slidingWindowLua
  rw [h]

theorem Twins.scopeReply (h : Twins settings now w w') (key : String) (limit : Nat) :
    scopeReply key limit settings.rateLimitWindowSeconds w =
      scopeReply key limit settings.rateLimitWindowSeconds w' := by
  unfold Core.scopeReply
  rw [h.clock, h.clock', h.uuids, h.drawn, slidingWindow_congr (h.agree key now le_rfl)]

theorem Twins.charged (h : Twins settings now w w') (key : String) (z : ZSet Member) :
    Twins settings now (charged w key z) (charged w' key z) := by
  refine ⟨h.clock, h.clock', h.uuids, congrArg (· + 1) h.drawn, fun key' u hu => ?_⟩
  by_cases hkey : key' = key
  · rw [hkey, limiter_charged_self, limiter_charged_self]
  · rw [limiter_charged_ne _ hkey, limiter_charged_ne _ hkey]
    exact h.agree key' u hu

theorem lockstep_enforceScope (key scope title : String) (limit : Nat) :
    Prog.Lockstep (effect 0) (Twins settings now)
      (enforceScope key scope title limit settings.rateLimitWindowSeconds) := by
  intro w w' h
  have hrun := run_enforceScope key scope title limit settings.rateLimitWindowSeconds w
  have hrun' := run_enforceScope key scope title limit settings.rateLimitWindowSeconds w'
  rw [← h.scopeReply key limit] at hrun'
  exact ⟨_, _, _, hrun, hrun', h.charged key _⟩

theorem lockstep_enforceRateLimit (clientHost userId : Option String) (eventWrite : Bool) :
    Prog.Lockstep (effect 0) (Twins settings now)
      (enforceRateLimit settings clientHost userId eventWrite) := by
  have huser : ∀ user, Prog.Lockstep (effect 0) (Twins settings now)
      (enforceUser settings user) := by
    intro user
    cases user with
    | none => exact Prog.lockstep_ret []
    | some userId => exact lockstep_enforceScope _ _ _ _
  have hevents : ∀ who, Prog.Lockstep (effect 0) (Twins settings now)
      (enforceEvents settings eventWrite who) := by
    intro who
    cases eventWrite with
    | false => exact Prog.lockstep_ret []
    | true => exact lockstep_enforceScope _ _ _ _
  apply (lockstep_enforceScope _ _ _ _).bind
  intro ip
  apply (huser _).bind
  intro perUser
  apply (hevents _).bind
  intro events
  exact Prog.lockstep_ret _

theorem Agree.run {t : Nat} (h : Agree settings t w w') {a : Attempt} (ha : t ≤ a.now) :
    ∃ r v v', a.run settings w = some (r, v) ∧ a.run settings w' = some (r, v') ∧
      Agree settings a.now v v' := by
  have htwins : Twins settings a.now { w with clock := a.now, uuids := a.uuids, drawn := 0 }
      { w' with clock := a.now, uuids := a.uuids, drawn := 0 } :=
    ⟨rfl, rfl, rfl, rfl, fun key u hu => h key u (ha.trans hu)⟩
  obtain ⟨r, v, v', hrun, hrun', hv⟩ :=
    lockstep_enforceRateLimit a.clientHost a.userId a.eventWrite _ _ htwins
  exact ⟨r, v, v', hrun, hrun', hv.agree⟩

theorem Agree.sameLater {t : Nat} (h : Agree settings t w w') : SameLater settings t w w' := by
  intro later hlater hsorted
  induction later generalizing t w w' with
  | nil => rfl
  | cons a later ih =>
      obtain ⟨r, v, v', hrun, hrun', hv⟩ := h.run (hlater a List.mem_cons_self)
      obtain ⟨hfirst, hrest⟩ := List.pairwise_cons.mp hsorted
      rw [decisions_cons hrun, decisions_cons hrun', ih hv hfirst hrest]

end Lockstep

section IpScope

variable {settings : Settings} {a : Attempt} {w w' : World}

def Attempt.start (a : Attempt) (w : World) : World :=
  { w with clock := a.now, uuids := a.uuids, drawn := 0 }

theorem Attempt.run_full (hfull : a.IpFull settings w) :
    ∃ exc, a.run settings w = some (.error exc,
      charged (a.start w) a.ipKey (a.ipCounted settings w)) := by
  obtain ⟨reset, heq⟩ := slidingWindowLua_of_ge a.ipMember hfull
  have hscope := run_enforceScope a.ipKey "IP" "IP" settings.rateLimitIp
    settings.rateLimitWindowSeconds (a.start w)
  have hreply : scopeReply a.ipKey settings.rateLimitIp settings.rateLimitWindowSeconds
      (a.start w) = (⟨false, (a.ipCounted settings w).zcard, reset⟩, a.ipCounted settings w) := heq
  rw [hreply] at hscope
  exact ⟨_, Prog.run_bind_error hscope⟩

theorem agree_pruned :
    Agree settings a.now w (charged (a.start w) a.ipKey (a.ipCounted settings w)) := by
  intro key u hu
  by_cases hkey : key = a.ipKey
  · rw [hkey, limiter_charged_self]
    exact (counted_counted hu hu _).symm
  · rw [limiter_charged_ne _ hkey]
    rfl

def Attempt.ipEntered (settings : Settings) (a : Attempt) (w : World) : ZSet Member :=
  ((a.ipCounted settings w).zadd a.now a.ipMember).pexpire
    (a.now + settings.rateLimitWindowSeconds * 1000)

/-- The two later scopes. -/
def Attempt.laterScopes (settings : Settings) (a : Attempt) (ip : List (String × String)) :
    App (List (String × String)) := do
  let user := a.userId.filter (· ≠ "")
  let perUser ← enforceUser settings user
  let events ← enforceEvents settings a.eventWrite (user.getD (a.clientHost.getD "unknown"))
  pure (ip ++ [("X-RateLimit-Policy", "sliding-window")] ++ perUser ++ events)

/-- Not a call of the script for `key`. -/
def spares (key : String) : Cmd → Prop
  | .evalSlidingWindow key' .. => key' ≠ key
  | _ => True

theorem spares_effect {key : String} {i : Nat} {c : Cmd} {r : Except Exn c.Resp}
    (hspares : spares key c) (heffect : effect i w c = some (r, w')) :
    w'.limiter key = w.limiter key := by
  cases c with
  | evalSlidingWindow key' now window limit member =>
      cases heffect
      exact if_neg (Ne.symm hspares)
  | setNx e ttl =>
      simp only [effect] at heffect
      split at heffect
      · cases heffect
        rfl
      · split at heffect <;> cases heffect <;> rfl
  | setXx e ttl =>
      simp only [effect] at heffect
      split at heffect <;> cases heffect
      · rfl
      · split <;> rfl
  | setDone e ttl =>
      simp only [effect] at heffect
      split at heffect <;> cases heffect <;> rfl
  | insertEvent row origin =>
      have hexec : backend.exec i .ok w (.insertEvent row origin) = some (r, w') := heffect
      rcases exec_insertEvent hexec with ⟨-, -, -, -, -, -, rfl⟩ | ⟨-, -, -, -, rfl⟩ |
        ⟨-, rfl, -⟩ | ⟨-, rfl, -⟩ <;> rfl
  | selectEvent e =>
      have hexec : backend.exec i .ok w (.selectEvent e) = some (r, w') := heffect
      rcases exec_selectEvent hexec with rfl | ⟨rfl, -⟩ <;> rfl
  | _ =>
      cases heffect
      rfl

theorem userKey_ne (userId : String) : "rl:sw:user:" ++ userId ≠ a.ipKey := by
  intro heq
  have hchars := congrArg String.toList heq
  simp [Attempt.ipKey, String.toList_append] at hchars

theorem eventsKey_ne (who : String) : "rl:sw:events:" ++ who ≠ a.ipKey := by
  intro heq
  have hchars := congrArg String.toList heq
  simp [Attempt.ipKey, String.toList_append] at hchars

theorem spares_laterScopes (settings : Settings) (a : Attempt) (ip : List (String × String)) :
    (a.laterScopes settings ip).Issues (spares a.ipKey) := by
  have hscope : ∀ key scope title limit window, key ≠ a.ipKey →
      (enforceScope key scope title limit window).Issues (spares a.ipKey) :=
    fun key scope title limit window hkey =>
      issues_enforceScope trivial trivial (fun _ _ _ _ => hkey) scope title limit window
  apply Prog.Issues.bind
  · unfold enforceUser
    split
    · exact hscope _ _ _ _ _ (userKey_ne _)
    · trivial
  · intro perUser
    apply Prog.Issues.bind
    · unfold enforceEvents
      split
      · exact hscope _ _ _ _ _ (eventsKey_ne _)
      · trivial
    · exact fun _ => trivial

theorem Attempt.run_open (hopen : ¬ a.IpFull settings w) {r : Except Exn (List (String × String))}
    (hrun : a.run settings w = some (r, w')) :
    w'.limiter a.ipKey = a.ipEntered settings w := by
  have hscope := run_enforceScope a.ipKey "IP" "IP" settings.rateLimitIp
    settings.rateLimitWindowSeconds (a.start w)
  have hreply : scopeReply a.ipKey settings.rateLimitIp settings.rateLimitWindowSeconds
      (a.start w) = (⟨true, (a.ipCounted settings w).zcard + 1,
        ceilSeconds (settings.rateLimitWindowSeconds * 1000)⟩, a.ipEntered settings w) :=
    slidingWindowLua_of_lt (not_le.mp hopen)
  rw [hreply] at hscope
  have hlater : (a.laterScopes settings _).run (effect 0)
      (charged (a.start w) a.ipKey (a.ipEntered settings w)) = some (r, w') :=
    (Prog.run_bind_ok hscope).symm.trans hrun
  have hkeeps := (spares_laterScopes settings a _).run
    (I := fun w₁ => w₁.limiter a.ipKey = a.ipEntered settings w)
    (fun c w₁ r₁ w₂ hc hI heffect => (spares_effect hc heffect).trans hI) hlater
  exact hkeeps (limiter_charged_self _ _)

end IpScope

section Fill

variable {limit windowSeconds now : Nat}

theorem counted_entered {z : ZSet Member} {member : Member} (hwindow : 0 < windowSeconds)
    (hnew : ∀ e ∈ (counted now now (windowSeconds * 1000) z).entries, e.member ≠ member) :
    (counted now now (windowSeconds * 1000)
      (((counted now now (windowSeconds * 1000) z).zadd now member).pexpire
        (now + windowSeconds * 1000))).entries.Perm
      (⟨now, member⟩ :: (counted now now (windowSeconds * 1000) z).entries) := by
  have hadded : ((counted now now (windowSeconds * 1000) z).zadd now member).entries.Perm
      (⟨now, member⟩ :: (counted now now (windowSeconds * 1000) z).entries) := ZSet.zadd_perm hnew
  rw [entries_counted]
  · exact hadded
  · rw [ZSet.expireAt_pexpire]
    omega
  · intro e he
    rcases List.mem_cons.mp (hadded.mem_iff.mp he) with rfl | he
    · change now < now + windowSeconds * 1000
      omega
    · exact (mem_counted.mp he).2

theorem all_allowed_iff {calls : List (Call Member)} {z : ZSet Member}
    (hwindow : 0 < windowSeconds) (hnow : ∀ c ∈ calls, c.now = now)
    (hnew : ∀ c ∈ calls, ∀ e ∈ (counted now now (windowSeconds * 1000) z).entries,
      e.member ≠ c.member)
    (hdistinct : (calls.map Call.member).Nodup) :
    (∀ cr ∈ slidingWindows limit windowSeconds z calls, cr.2.allowed = true) ↔
      (counted now now (windowSeconds * 1000) z).zcard + calls.length ≤ limit ∨ calls = [] := by
  induction calls generalizing z with
  | nil => simp [slidingWindows]
  | cons c calls ih =>
      have hc : c.now = now := hnow c List.mem_cons_self
      simp only [slidingWindows, List.forall_mem_cons, slidingWindow_allowed_iff, hc,
        List.length_cons, reduceCtorEq, or_false]
      by_cases hlt : (counted now now (windowSeconds * 1000) z).zcard < limit
      · obtain ⟨hfirst, hrest⟩ := List.nodup_cons.mp hdistinct
        have hentered := counted_entered hwindow (hnew c List.mem_cons_self)
        have hstep : (slidingWindow z limit windowSeconds now c.member).2 =
            ((counted now now (windowSeconds * 1000) z).zadd now c.member).pexpire
              (now + windowSeconds * 1000) := by
          rw [slidingWindow, slidingWindowLua_of_lt hlt]
        have hlength : (counted now now (windowSeconds * 1000)
            (slidingWindow z limit windowSeconds now c.member).2).zcard =
            (counted now now (windowSeconds * 1000) z).zcard + 1 := by
          rw [hstep]
          exact hentered.length_eq
        rw [ih (fun d hd => hnow d (List.mem_cons_of_mem _ hd)) ?_ hrest, hlength]
        · simp only [hlt, true_and]
          constructor
          · rintro (hroom | rfl)
            · omega
            · simp only [List.length_nil]
              omega
          · intro hroom
            exact .inl (by omega)
        · intro d hd e he
          rw [hstep] at he
          rcases List.mem_cons.mp (hentered.mem_iff.mp he) with rfl | he
          · intro heq
            have hsame : c.member = d.member := heq
            exact hfirst (hsame ▸ List.mem_map_of_mem hd)
          · exact hnew d (List.mem_cons_of_mem _ hd) e he
      · simp only [hlt, false_and, false_iff]
        omega

theorem exists_unused {N k : Nat} (used : List Nat) (hroom : k + used.length ≤ N) :
    ∃ hs : List Nat, hs.Nodup ∧ hs.length = k ∧ ∀ h ∈ hs, h < N ∧ ∀ u ∈ used, u ≠ h := by
  have hcard : k ≤ (Finset.range N \ used.toFinset).card := by
    have hused := used.toFinset_card_le
    have hdiff := Finset.le_card_sdiff used.toFinset (Finset.range N)
    rw [Finset.card_range] at hdiff
    omega
  obtain ⟨s, hs, hsize⟩ := Finset.exists_subset_card_eq hcard
  refine ⟨s.toList, s.nodup_toList, by rw [Finset.length_toList, hsize], fun h hh => ?_⟩
  have hmem := Finset.mem_sdiff.mp (hs (Finset.mem_toList.mp hh))
  refine ⟨Finset.mem_range.mp hmem.1, fun u hu heq => hmem.2 ?_⟩
  exact List.mem_toFinset.mpr (heq ▸ hu)

/-- A further request without a user from the same address, at the same time, whose
`uuid4` begins with `h`. -/
def Attempt.another (a : Attempt) (h : Nat) : Attempt where
  now := a.now
  clientHost := a.clientHost
  userId := none
  eventWrite := false
  uuids := fun _ => BitVec.ofNat 128 (h * 2 ^ 96)

def Attempt.anotherCall (a : Attempt) (h : Nat) : Call Member := ⟨a.now, toLex (a.now, h)⟩

theorem anotherCall_now {a : Attempt} {hs : List Nat} : ∀ c ∈ hs.map a.anotherCall, c.now = a.now :=
  List.forall_mem_map.mpr fun _ _ => rfl

theorem anotherCall_distinct {a : Attempt} {hs : List Nat} (hs' : hs.Nodup) :
    ((hs.map a.anotherCall).map Call.member).Nodup := by
  rw [List.map_map]
  apply hs'.map
  intro h h' heq
  exact congrArg (fun m : Member => (ofLex m).2) heq

theorem anotherCall_new {a : Attempt} {hs : List Nat} {members : List Member}
    (hnew : ∀ h ∈ hs, ∀ m ∈ members, (ofLex m).2 ≠ h) :
    ∀ c ∈ hs.map a.anotherCall, ∀ m ∈ members, m ≠ c.member := by
  intro c hc m hm heq
  obtain ⟨h, hh, rfl⟩ := List.mem_map.mp hc
  exact hnew h hh m hm (congrArg (fun m : Member => (ofLex m).2) heq)

theorem hex8_ofNat {h : Nat} (hh : h < 2 ^ 32) : hex8 (BitVec.ofNat 128 (h * 2 ^ 96)) = h := by
  unfold hex8
  rw [BitVec.toNat_ofNat, Nat.mod_eq_of_lt, Nat.mul_div_cancel]
  · decide
  · omega

variable {settings : Settings} {a : Attempt} {w w' : World}

theorem run_another (settings : Settings) (a : Attempt) {h : Nat} (hh : h < 2 ^ 32) (w : World) :
    ∃ r v, (a.another h).run settings w = some (r, v) ∧
      r.isOk = (slidingWindow (w.limiter a.ipKey) settings.rateLimitIp
        settings.rateLimitWindowSeconds a.now (a.anotherCall h).member).1.allowed ∧
      v.limiter a.ipKey = (slidingWindow (w.limiter a.ipKey) settings.rateLimitIp
        settings.rateLimitWindowSeconds a.now (a.anotherCall h).member).2 := by
  have hreply : scopeReply a.ipKey settings.rateLimitIp settings.rateLimitWindowSeconds
      ((a.another h).start w) = slidingWindow (w.limiter a.ipKey) settings.rateLimitIp
        settings.rateLimitWindowSeconds a.now (a.anotherCall h).member := by
    have hmember : (a.anotherCall h).member =
        toLex (a.now, hex8 ((a.another h).uuids 0)) := by
      unfold Attempt.another
      rw [hex8_ofNat hh, Attempt.anotherCall]
    rw [hmember]
    rfl
  have hscope := run_enforceScope a.ipKey "IP" "IP" settings.rateLimitIp
    settings.rateLimitWindowSeconds ((a.another h).start w)
  rw [hreply] at hscope
  have hok := isOk_scopeAnswer "IP" "IP" settings.rateLimitIp settings.rateLimitWindowSeconds
    (slidingWindow (w.limiter a.ipKey) settings.rateLimitIp settings.rateLimitWindowSeconds a.now
      (a.anotherCall h).member).1
  cases hanswer : scopeAnswer "IP" "IP" settings.rateLimitIp settings.rateLimitWindowSeconds
      (slidingWindow (w.limiter a.ipKey) settings.rateLimitIp settings.rateLimitWindowSeconds a.now
        (a.anotherCall h).member).1 with
  | error exc =>
      rw [hanswer] at hscope hok
      exact ⟨_, _, Prog.run_bind_error hscope, hok, limiter_charged_self _ _⟩
  | ok headers =>
      rw [hanswer] at hscope hok
      exact ⟨_, _, Prog.run_bind_ok hscope, hok, limiter_charged_self _ _⟩

theorem decisions_another {hs : List Nat} (hsmall : ∀ h ∈ hs, h < 2 ^ 32) (w : World) :
    decisions settings w (hs.map a.another) =
      (slidingWindows settings.rateLimitIp settings.rateLimitWindowSeconds (w.limiter a.ipKey)
        (hs.map a.anotherCall)).map fun cr => cr.2.allowed := by
  induction hs generalizing w with
  | nil => rfl
  | cons h hs ih =>
      obtain ⟨r, v, hrun, hok, hset⟩ :=
        run_another settings a (hsmall h List.mem_cons_self) w
      rw [List.map_cons, decisions_cons hrun, hok,
        ih fun h' hh' => hsmall h' (List.mem_cons_of_mem _ hh'), hset]
      rfl

/-- What the IP scope has charged shows: fill the window from the same address, and the
last request is refused. -/
theorem not_sameLater {r : Except Exn (List (String × String))}
    (hwindow : 0 < settings.rateLimitWindowSeconds) (hlimit : settings.rateLimitIp < 2 ^ 32)
    (hnew : ∀ e ∈ (a.ipCounted settings w).entries, e.member ≠ a.ipMember)
    (hopen : ¬ a.IpFull settings w) (hrun : a.run settings w = some (r, w')) :
    ¬ SameLater settings a.now w w' := by
  have hlt : (a.ipCounted settings w).zcard < settings.rateLimitIp := not_le.mp hopen
  have hcharged := counted_entered hwindow hnew
  rw [← Attempt.ipCounted] at hcharged
  change (counted _ _ _ (a.ipEntered settings w)).entries.Perm _ at hcharged
  rw [← a.run_open hopen hrun] at hcharged
  obtain ⟨hs, hnodup, hlength, hunused⟩ := exists_unused (N := 2 ^ 32)
    (k := settings.rateLimitIp - (a.ipCounted settings w).zcard)
    ((a.ipMember :: (a.ipCounted settings w).entries.map ZEntry.member).map fun m => (ofLex m).2)
    (by simp only [List.length_map, List.length_cons]; unfold ZSet.zcard at hlt ⊢; omega)
  have hmembers := anotherCall_new (a := a) fun h hh m hm =>
    (hunused h hh).2 _ (List.mem_map_of_mem hm)
  have hall : ∀ cr ∈ slidingWindows settings.rateLimitIp settings.rateLimitWindowSeconds
      (w.limiter a.ipKey) (hs.map a.anotherCall), cr.2.allowed = true := by
    refine (all_allowed_iff hwindow anotherCall_now (fun c hc e he => ?_)
      (anotherCall_distinct hnodup)).mpr (.inl ?_)
    · exact hmembers c hc _ (List.mem_cons_of_mem _ (List.mem_map_of_mem he))
    · rw [List.length_map, hlength]
      exact (Nat.add_sub_cancel' hlt.le).le
  have hnotAll : ¬ ∀ cr ∈ slidingWindows settings.rateLimitIp settings.rateLimitWindowSeconds
      (w'.limiter a.ipKey) (hs.map a.anotherCall), cr.2.allowed = true := by
    rw [all_allowed_iff hwindow anotherCall_now _ (anotherCall_distinct hnodup)]
    · rw [List.map_eq_nil_iff, ← List.length_eq_zero_iff, List.length_map, hlength]
      have hsize := hcharged.length_eq
      rw [List.length_cons] at hsize
      unfold ZSet.zcard at hlt ⊢
      omega
    · intro c hc e he
      refine hmembers c hc _ ?_
      rcases List.mem_cons.mp (hcharged.mem_iff.mp he) with rfl | he
      · exact List.mem_cons_self
      · exact List.mem_cons_of_mem _ (List.mem_map_of_mem he)
  intro hsame
  have hdecisions := hsame (hs.map a.another) (List.forall_mem_map.mpr fun _ _ => le_rfl)
    (List.pairwise_map.mpr (List.pairwise_of_forall fun _ _ => le_rfl))
  have hsmall : ∀ h ∈ hs, h < 2 ^ 32 := fun h hh => (hunused h hh).1
  rw [decisions_another hsmall, decisions_another hsmall] at hdecisions
  have hthrough : ∀ b ∈ (slidingWindows settings.rateLimitIp settings.rateLimitWindowSeconds
      (w.limiter a.ipKey) (hs.map a.anotherCall)).map fun cr => cr.2.allowed, b = true :=
    List.forall_mem_map.mpr hall
  rw [← hdecisions] at hthrough
  exact hnotAll (List.forall_mem_map.mp hthrough)

end Fill

/-- A rejected request is free exactly when the IP scope is the one that refuses it. For
the exactness a window is some time long, holds fewer entries than `uuid4` tells apart,
and does not hold the request's member already. -/
theorem rejected_free_iff {settings : Settings} {a : Attempt} {w w' : World} {exc : Exn}
    (hrejected : a.run settings w = some (.error exc, w')) :
    (a.IpFull settings w → SameLater settings a.now w w') ∧
      (0 < settings.rateLimitWindowSeconds → settings.rateLimitIp < 2 ^ 32 →
        (∀ e ∈ (a.ipCounted settings w).entries, e.member ≠ a.ipMember) →
        SameLater settings a.now w w' → a.IpFull settings w) := by
  constructor
  · intro hfull
    obtain ⟨exc', hrun⟩ := Attempt.run_full hfull
    obtain ⟨-, rfl⟩ := Prod.mk.inj (Option.some.inj (hrejected.symm.trans hrun))
    exact agree_pruned.sameLater
  · intro hwindow hlimit hnew hsame
    by_contra hopen
    exact not_sameLater hwindow hlimit hnew hopen hrejected hsame

instance (settings : Settings) (a : Attempt) (w : World) : Decidable (a.IpFull settings w) :=
  inferInstanceAs (Decidable (_ ≤ _))

theorem Attempt.exists_run (settings : Settings) (a : Attempt) (w : World) :
    ∃ r v, a.run settings w = some (r, v) := by
  have hsame : Agree settings a.now w w := fun _ _ _ => rfl
  obtain ⟨r, v, -, hrun, -⟩ := hsame.run (a := a) le_rfl
  exact ⟨r, v, hrun⟩

/-- A request of `user` from one address, `n` milliseconds after the first. -/
def neighbour (n : Nat) (user : String) : Attempt :=
  ⟨5000 + n, some "10.0.0.1", some user, true, fun k => BitVec.ofNat 128 ((8 * n + k) * 2 ^ 96)⟩

/-- At most one request a minute for a user, two for an address. The second request of
"ann" is rejected, and with it the only one of "bob". -/
theorem neighbour_refused :
    ¬ ∀ (settings : Settings) (w : World) (a : Attempt) (exc : Exn) (w' : World),
      a.run settings w = some (.error exc, w') → SameLater settings a.now w w' := by
  intro h
  let settings : Settings := { rateLimitIp := 2, rateLimitUser := 1 }
  have hthree : decisions settings (World.init 0)
      [neighbour 0 "ann", neighbour 1 "ann", neighbour 2 "bob"] = [true, false, false] := by
    decide +kernel
  have htwo : decisions settings (World.init 0) [neighbour 0 "ann", neighbour 2 "bob"] =
      [true, true] := by
    decide +kernel
  obtain ⟨r, w, hfirst⟩ := (neighbour 0 "ann").exists_run settings (World.init 0)
  obtain ⟨r', w', hsecond⟩ := (neighbour 1 "ann").exists_run settings w
  rw [decisions_cons hfirst, List.cons.injEq] at htwo hthree
  rw [decisions_cons hsecond, List.cons.injEq] at hthree
  cases r' with
  | ok headers => cases hthree.2.1
  | error exc =>
      have hsame := h settings w _ exc w' hsecond [neighbour 2 "bob"] (by decide) (by decide)
      rw [htwo.2, hthree.2.2] at hsame
      cases hsame

/-- After the first request of "ann": with room for one request of the address the next
one is free, with room for two a second one of hers is not. -/
theorem rejected_free_iff_neighbour :
    (∃ w exc w', (neighbour 1 "bob").run { rateLimitIp := 1 } w = some (.error exc, w') ∧
      SameLater { rateLimitIp := 1 } 5001 w w') ∧
    ∃ w exc w', (neighbour 1 "ann").run { rateLimitIp := 2, rateLimitUser := 1 } w =
        some (.error exc, w') ∧
      ¬ SameLater { rateLimitIp := 2, rateLimitUser := 1 } 5001 w w' := by
  constructor
  · let w : World :=
      ((neighbour 0 "ann").run { rateLimitIp := 1 } (World.init 0)).elim (World.init 0) Prod.snd
    have hfull : (neighbour 1 "bob").IpFull { rateLimitIp := 1 } w := by decide +kernel
    obtain ⟨exc, hrun⟩ := Attempt.run_full hfull
    exact ⟨w, exc, _, hrun, (rejected_free_iff hrun).1 hfull⟩
  · let settings : Settings := { rateLimitIp := 2, rateLimitUser := 1 }
    let w : World := ((neighbour 0 "ann").run settings (World.init 0)).elim (World.init 0) Prod.snd
    have hopen : ¬ (neighbour 1 "ann").IpFull settings w := by decide +kernel
    have hnew : ∀ e ∈ ((neighbour 1 "ann").ipCounted settings w).entries,
        e.member ≠ (neighbour 1 "ann").ipMember := by decide +kernel
    have hdecided : decisions settings w [neighbour 1 "ann"] = [false] := by decide +kernel
    obtain ⟨r, w', hrun⟩ := (neighbour 1 "ann").exists_run settings w
    rw [decisions_cons hrun, List.cons.injEq] at hdecided
    cases r with
    | ok headers => cases hdecided.1
    | error exc =>
        exact ⟨w, exc, w', hrun, fun hsame => hopen
          ((rejected_free_iff hrun).2 (by decide) (by decide) hnew hsame)⟩

end EventAnalytics.Core
