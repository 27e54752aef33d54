import Rfrp.Common.Heartbeat

/-!
# The heartbeat and time

The watchdog with what goes on around it: the timer of its rounds, the time its send may take, the
Heartbeats on their way to the peer and the responses on their way back.  The reader of the peer
answers each Heartbeat with its `ts`, in the order of their arrival, unless its `try_send` finds the
channel full (`Message::Heartbeat` in `handle_control_login`, `crates/rfrps/src/control.rs`, and in
`control_loop`, `crates/rfrpc/src/control.rs`).

When a task runs is up to the runtime.  What follows is about the runs in which time passes only
while the task waits (`Prompt`).  In these, a peer whose answers arrive before the timeout is never
reported, whatever the clock reads (`responsive_peer_kept`); and a peer that has fallen silent is
reported after an interval, the time of the send and the timeout, if the clock has gone on from round to
round (`Forward`, `silent_peer_reported`): of two rounds with one reading, the answer to the first counts
for the second too.
-/

namespace Rfrp

namespace Heartbeat

/-- `CONTROL_SEND_TIMEOUT` (`crates/rfrp-common/src/util/control.rs`), in milliseconds. -/
def controlSendTimeout : ℕ := 5000

/-- A Heartbeat that was sent, or the response to it: its `ts`, and when the Heartbeat was sent. -/
structure Ping where
  ts : UInt64
  sentAt : Instant
  deriving DecidableEq, Repr

/-- One end of a control connection: its watchdog, and the way to the peer and back.  `nextTick` is
when `iv.tick()` returns next and `tickedAt` when it last has; `lastTs` is the `ts` of the last
round, and `lastHeard` tells when the last response was received. -/
structure Link where
  watchdog : Watchdog
  interval : ℕ
  nextTick : Instant
  tickedAt : Instant
  lastTs : UInt64
  requests : List Ping
  responses : List Ping
  lastHeard : Instant
  deriving DecidableEq, Repr

/-- What can happen next. -/
inductive Event where
  /-- `iv.tick()` returns, and the system clock is read. -/
  | tick (ts : UInt64)
  /-- `send_with_timeout` returns. -/
  | send (ok : Bool)
  /-- The heartbeat task goes on. -/
  | task
  /-- The peer receives the first Heartbeat on the way; its `try_send` of the response succeeds or not. -/
  | respond (ok : Bool)
  /-- The reader receives the first response on the way. -/
  | receive (clock : UInt64)
  /-- The reader notifies the task. -/
  | notify
  /-- Time passes. -/
  | pass (ms : ℕ)
  deriving DecidableEq

namespace Link

/-- A new control connection; the first tick of the interval is consumed at once. -/
def new (interval heartbeatTimeout : ℕ) (now : Instant) : Link where
  watchdog := .new heartbeatTimeout now
  interval := interval
  nextTick := now + interval
  tickedAt := now
  lastTs := 0
  requests := []
  responses := []
  lastHeard := now

/-- One step.  A tick that comes late does not shift those after it. -/
def step (s : Link) : Event → Option Link
  | .tick ts =>
    if s.nextTick ≤ s.watchdog.now then
      (s.watchdog.step (.tick ts)).map fun w =>
        { s with
          watchdog := w, nextTick := s.nextTick + s.interval, tickedAt := s.watchdog.now, lastTs := ts }
    else
      none
  | .send ok =>
    (s.watchdog.step (.send ok)).map fun w =>
      { s with
        watchdog := w,
        requests := if ok then s.requests ++ [⟨s.lastTs, s.watchdog.now⟩] else s.requests }
  | .task => (s.watchdog.step .task).map fun w => { s with watchdog := w }
  | .respond ok =>
    match s.requests with
    | [] => none
    | ping :: requests =>
      some { s with
        requests := requests, responses := if ok then s.responses ++ [ping] else s.responses }
  | .receive clock =>
    match s.responses with
    | [] => none
    | ping :: responses =>
      (s.watchdog.step (.response ping.ts clock)).map fun w =>
        { s with watchdog := w, responses := responses, lastHeard := s.watchdog.now }
  | .notify => (s.watchdog.step .notify).map fun w => { s with watchdog := w }
  | .pass ms => (s.watchdog.step (.pass ms)).map fun w => { s with watchdog := w }

/-! ## What the runs are about -/

/-- What is on the way, the oldest first. -/
def inFlight (s : Link) : List Ping := s.responses ++ s.requests

/-- When the heartbeat task goes on at the latest. -/
def wakeUp (s : Link) : Option Instant :=
  match s.watchdog.phase with
  | .idle => some s.nextTick
  | .sending _ => some (s.tickedAt + controlSendTimeout)
  | .waiting _ deadline => some (if s.watchdog.pong then s.watchdog.now else deadline)
  | .sendFailed => none
  | .timedOut _ _ => none
  | _ => some s.watchdog.now

/-- Time passes only while the reader and the heartbeat task wait. -/
def Prompt (s : Link) : Event → Prop
  | .pass ms =>
    s.watchdog.handling = false ∧ ∀ t ∈ s.wakeUp, s.watchdog.now + ms ≤ t
  | _ => True

/-- The peer answers every Heartbeat, and no answer takes longer than `rtt`. -/
def Answering (rtt : ℕ) (s : Link) : Event → Prop
  | .pass ms => ∀ ping ∈ s.inFlight, s.watchdog.now + ms ≤ ping.sentAt + rtt
  | .respond ok => ok = true
  | _ => True

/-- The clock has gone on since the last round: the reading is above the last one, not only not below. -/
def Forward (s : Link) : Event → Prop
  | .tick ts => s.lastTs < ts
  | _ => True

instance (s : Link) : ∀ e, Decidable (s.Prompt e)
  | .pass ms =>
    inferInstanceAs (Decidable (s.watchdog.handling = false ∧ ∀ t ∈ s.wakeUp, s.watchdog.now + ms ≤ t))
  | .tick _ => isTrue trivial
  | .send _ => isTrue trivial
  | .task => isTrue trivial
  | .respond _ => isTrue trivial
  | .receive _ => isTrue trivial
  | .notify => isTrue trivial

instance (rtt : ℕ) (s : Link) : ∀ e, Decidable (s.Answering rtt e)
  | .pass ms =>
    inferInstanceAs (Decidable (∀ ping ∈ s.inFlight, s.watchdog.now + ms ≤ ping.sentAt + rtt))
  | .respond ok => inferInstanceAs (Decidable (ok = true))
  | .tick _ => isTrue trivial
  | .send _ => isTrue trivial
  | .task => isTrue trivial
  | .receive _ => isTrue trivial
  | .notify => isTrue trivial

instance (s : Link) : ∀ e, Decidable (s.Forward e)
  | .tick ts => inferInstanceAs (Decidable (s.lastTs < ts))
  | .pass _ => isTrue trivial
  | .send _ => isTrue trivial
  | .task => isTrue trivial
  | .respond _ => isTrue trivial
  | .receive _ => isTrue trivial
  | .notify => isTrue trivial

variable {s s' : Link} {e : Event} {rtt : ℕ} {ts : UInt64} {deadline : Instant}

/-- What a step does. -/
inductive Stepped (s : Link) : Event → Link → Prop where
  | ticked (ts : UInt64) (hphase : s.watchdog.phase = .idle) (hdue : s.nextTick ≤ s.watchdog.now) :
    Stepped s (.tick ts)
      { s with
        watchdog := { s.watchdog with phase := .sending ts }, nextTick := s.nextTick + s.interval,
        tickedAt := s.watchdog.now, lastTs := ts }
  | sent (ts : UInt64) (hphase : s.watchdog.phase = .sending ts) :
    Stepped s (.send true)
      { s with
        watchdog := { s.watchdog with phase := .sent ts, heard := false },
        requests := s.requests ++ [⟨s.lastTs, s.watchdog.now⟩] }
  | sendFailed (ts : UInt64) (hphase : s.watchdog.phase = .sending ts) :
    Stepped s (.send false)
      { s with watchdog := { s.watchdog with phase := .sendFailed, disconnect := true } }
  | task (w : Watchdog) (htask : s.watchdog.taskStep = some w) :
    Stepped s .task { s with watchdog := w }
  | responded (ping : Ping) (requests : List Ping) (hrequests : s.requests = ping :: requests) :
    Stepped s (.respond true) { s with requests := requests, responses := s.responses ++ [ping] }
  | dropped (ping : Ping) (requests : List Ping) (hrequests : s.requests = ping :: requests) :
    Stepped s (.respond false) { s with requests := requests }
  | received (ping : Ping) (responses : List Ping) (clock : UInt64)
    (hresponses : s.responses = ping :: responses) (w : Watchdog)
    (hw : s.watchdog.step (.response ping.ts clock) = some w) :
    Stepped s (.receive clock)
      { s with watchdog := w, responses := responses, lastHeard := s.watchdog.now }
  | notified (hhandling : s.watchdog.handling = true) :
    Stepped s .notify { s with watchdog := { s.watchdog with pong := true, handling := false } }
  | passed (ms : ℕ) :
    Stepped s (.pass ms) { s with watchdog := { s.watchdog with now := s.watchdog.now + ms } }

/-- The steps of a link are those of its events. -/
lemma stepped (h : s.step e = some s') : s.Stepped e s' := by
  cases e with
  | tick ts =>
    simp only [step] at h
    split at h
    · next hdue =>
      obtain ⟨w, hw, rfl⟩ := Option.map_eq_some_iff.mp h
      simp only [Watchdog.step] at hw
      split at hw
      · next hphase => cases hw; exact .ticked ts hphase hdue
      · cases hw
    · cases h
  | send ok =>
    obtain ⟨w, hw, rfl⟩ := Option.map_eq_some_iff.mp h
    simp only [Watchdog.step] at hw
    split at hw
    · next ts hphase =>
      cases ok with
      | true => cases hw; exact .sent ts hphase
      | false => cases hw; exact .sendFailed ts hphase
    · cases hw
  | task =>
    obtain ⟨w, hw, rfl⟩ := Option.map_eq_some_iff.mp h
    exact .task w hw
  | respond ok =>
    simp only [step] at h
    split at h
    · cases h
    · next ping requests hrequests =>
      cases ok with
      | true => cases h; exact .responded ping requests hrequests
      | false => cases h; exact .dropped ping requests hrequests
  | receive clock =>
    simp only [step] at h
    split at h
    · cases h
    · next ping responses hresponses =>
      obtain ⟨w, hw, rfl⟩ := Option.map_eq_some_iff.mp h
      exact .received ping responses clock hresponses w hw
  | notify =>
    obtain ⟨w, hw, rfl⟩ := Option.map_eq_some_iff.mp h
    simp only [Watchdog.step] at hw
    split at hw
    · next hhandling => cases hw; exact .notified hhandling
    · cases hw
  | pass ms =>
    cases h
    exact .passed ms

/-- What the arrival of a response does to the watchdog. -/
lemma response_eq {w w' : Watchdog} {clock : UInt64} (h : w.step (.response ts clock) = some w') :
    w.handling = false ∧ w' =
      { w with
        pongTs := ts, handling := true, rttMs := if clock ≥ ts then clock - ts else 0, heard := true } := by
  simp only [Watchdog.step] at h
  split at h
  · cases h
  · next hhandling =>
    cases h
    exact ⟨eq_false_of_ne_true hhandling, rfl⟩

/-- The task looks again only at an echo below its `ts`. -/
lemma below_of_taskStep {w w' : Watchdog} (hphase : w.phase = .looking ts deadline)
    (h : w.taskStep = some w') (hidle : w'.phase ≠ .idle) : w.pongTs < ts := by
  refine UInt64.not_le.mp fun hle => hidle ?_
  rw [Watchdog.taskStep, hphase] at h
  simp only [ge_iff_le, hle, if_true] at h
  cases h
  rfl

/-! ## A peer that answers is kept -/

/-- The response to the round with `ts` is what is on the way last. -/
def Outstanding (s : Link) (ts : UInt64) : Prop :=
  ∃ before sentAt, s.inFlight = before ++ [⟨ts, sentAt⟩] ∧
    (s.watchdog.phase = .sent ts → sentAt = s.watchdog.now) ∧
      ∀ deadline, s.watchdog.phase.deadline = some deadline →
        deadline = sentAt + s.watchdog.heartbeatTimeout

/-- The response to the round with `ts` has been received, and the task does not wait for another
one. -/
def Stored (s : Link) (ts : UInt64) : Prop :=
  s.inFlight = [] ∧ s.watchdog.pongTs = ts ∧
    ∀ deadline, s.watchdog.phase = .unanswered ts deadline ∨ s.watchdog.phase = .waiting ts deadline →
      s.watchdog.pong = true ∨ s.watchdog.handling = true

/-- The invariant of the runs in which the peer answers. -/
structure Responsive (rtt : ℕ) (s : Link) : Prop where
  short : rtt < s.watchdog.heartbeatTimeout
  /-- No answer is late. -/
  timely : ∀ ping ∈ s.inFlight, s.watchdog.now ≤ ping.sentAt + rtt
  last : ∀ ts, s.watchdog.phase = .sending ts → s.lastTs = ts
  answer : ∀ ts, s.watchdog.phase.round = some ts → s.Outstanding ts ∨ s.Stored ts
  early : ∀ deadline, s.watchdog.phase.deadline = some deadline → s.watchdog.now < deadline
  kept : s.watchdog.disconnect = true → s.watchdog.phase = .sendFailed

/-- A new link is responsive. -/
lemma Responsive.of_new (interval heartbeatTimeout : ℕ) (now : Instant) (h : rtt < heartbeatTimeout) :
    Responsive rtt (new interval heartbeatTimeout now) where
  short := h
  timely ping hping := by cases hping
  last ts hphase := by cases hphase
  answer ts hround := by cases hround
  early d hdeadline := by cases hdeadline
  kept hdisconnect := by cases hdisconnect

/-- Moving on within a round, to a phase in which the task does not wait. -/
lemma Responsive.within (hs : s.Responsive rtt) {p : Phase} {pong : Bool}
    (hround : s.watchdog.phase.round = some ts) (hp : p.round = some ts)
    (hsent : ∀ ts, p ≠ .sent ts)
    (hdeadline : ∀ d, p.deadline = some d → s.watchdog.phase.deadline = some d)
    (hwait : s.Stored ts → ∀ d, p = .unanswered ts d ∨ p = .waiting ts d →
      pong = true ∨ s.watchdog.handling = true) :
    Responsive rtt { s with watchdog := { s.watchdog with phase := p, pong := pong } } where
  short := hs.short
  timely := hs.timely
  last ts' hphase := by
    rw [show p = .sending ts' from hphase] at hp
    cases hp
  answer ts' hround' := by
    rw [show p.round = some ts' from hround'] at hp
    cases hp
    rcases hs.answer ts hround with ⟨before, sentAt, hflight, _, hdl⟩ | hstored
    · exact .inl ⟨before, sentAt, hflight, fun h => absurd h (hsent ts), fun d hd => hdl d (hdeadline d hd)⟩
    · exact .inr ⟨hstored.1, hstored.2.1, hwait hstored⟩
  early d hd := hs.early d (hdeadline d hd)
  kept hdisconnect := by
    have := hs.kept hdisconnect
    rw [this] at hround
    cases hround

/-- What a step of the heartbeat task preserves. -/
lemma Responsive.task (hs : s.Responsive rtt) {w : Watchdog} (h : s.watchdog.taskStep = some w) :
    Responsive rtt { s with watchdog := w } := by
  cases Watchdog.taskStep_cases h with
  | enter ts hphase =>
    refine ⟨hs.short, hs.timely, fun _ h => (nomatch h), fun ts' hround => ?_, fun d hd => ?_,
      fun hdisconnect => ?_⟩
    · cases hround
      rcases hs.answer ts (by rw [hphase]; rfl) with ⟨before, sentAt, hflight, hat, _⟩ | hstored
      · refine .inl ⟨before, sentAt, hflight, fun h => (nomatch h), fun d hd => ?_⟩
        cases hd
        rw [hat hphase]
      · exact .inr ⟨hstored.1, hstored.2.1, fun d h => by rcases h with h | h <;> cases h⟩
    · cases hd
      exact Nat.lt_add_of_pos_right (Nat.zero_lt_of_lt hs.short)
    · rw [hs.kept hdisconnect] at hphase
      cases hphase
  | answered ts d hphase hle =>
    refine ⟨hs.short, hs.timely, fun _ h => (nomatch h), fun _ h => (nomatch h), fun _ h => (nomatch h),
      fun hdisconnect => ?_⟩
    rw [hs.kept hdisconnect] at hphase
    cases hphase
  | below ts d hphase =>
    have hbelow := below_of_taskStep hphase h (by simp)
    have hround : s.watchdog.phase.round = some ts := by rw [hphase]; rfl
    refine hs.within hround rfl (by simp) (fun d' hd' => ?_) fun hstored => ?_
    · rw [hphase]
      exact hd'
    · rw [hstored.2.1] at hbelow
      exact absurd hbelow (UInt64.lt_irrefl ts)
  | wait ts d hphase =>
    have hround : s.watchdog.phase.round = some ts := by rw [hphase]; rfl
    refine hs.within hround rfl (by simp) (fun d' hd' => ?_) fun hstored d' _ => ?_
    · rw [hphase]
      exact hd'
    · exact hstored.2.2 d (.inl hphase)
  | notified ts d hphase =>
    have hround : s.watchdog.phase.round = some ts := by rw [hphase]; rfl
    refine hs.within hround rfl (by simp) (fun d' hd' => ?_) fun _ d' h => ?_
    · rw [hphase]
      exact hd'
    · rcases h with h | h <;> cases h
  | timedOut ts d hphase hle =>
    have hdeadline : s.watchdog.phase.deadline = some d := by
      rcases hphase with hphase | hphase <;> rw [hphase] <;> rfl
    exact absurd hle (Nat.not_le.mpr (hs.early d hdeadline))

/-- While the task waits for the answer, it is on the way. -/
lemma Responsive.onTheWay (hs : s.Responsive rtt) (hphase : s.watchdog.phase = .waiting ts deadline)
    (hpong : s.watchdog.pong = false) (hhandling : s.watchdog.handling = false) :
    ∃ ping ∈ s.inFlight, deadline = ping.sentAt + s.watchdog.heartbeatTimeout := by
  rcases hs.answer ts (by rw [hphase]; rfl) with ⟨before, sentAt, hflight, _, hdl⟩ | hstored
  · refine ⟨⟨ts, sentAt⟩, ?_, hdl deadline (by rw [hphase]; rfl)⟩
    rw [hflight]
    exact List.mem_append_right _ (List.mem_singleton_self _)
  · rcases hstored.2.2 deadline (.inr hphase) with h | h
    · rw [hpong] at h
      cases h
    · rw [hhandling] at h
      cases h

/-- Time does not pass while the task can go on. -/
lemma Prompt.stay {ms : ℕ} (h : s.Prompt (.pass ms)) (hwakeUp : s.wakeUp = some s.watchdog.now) :
    ms = 0 :=
  Nat.le_zero.mp (Nat.le_of_add_le_add_left (h.2 s.watchdog.now hwakeUp))

/-- Time passes before the deadline only. -/
lemma Responsive.pass (hs : s.Responsive rtt) {ms : ℕ} (hprompt : s.Prompt (.pass ms))
    (hanswering : s.Answering rtt (.pass ms)) :
    Responsive rtt { s with watchdog := { s.watchdog with now := s.watchdog.now + ms } } := by
  refine ⟨hs.short, hanswering, hs.last, fun ts hround => ?_, fun d hd => ?_, hs.kept⟩
  · rcases hs.answer ts hround with ⟨before, sentAt, hflight, hat, hdl⟩ | hstored
    · refine .inl ⟨before, sentAt, hflight, fun hphase => ?_, hdl⟩
      -- the task enters its round at once
      change s.watchdog.phase = .sent ts at hphase
      rw [hprompt.stay (by rw [wakeUp, hphase])]
      exact hat hphase
    · exact .inr hstored
  · change s.watchdog.phase.deadline = some d at hd
    cases hphase : s.watchdog.phase with
    | looking ts d' =>
      rw [hprompt.stay (by rw [wakeUp, hphase])]
      exact hs.early d hd
    | unanswered ts d' =>
      rw [hprompt.stay (by rw [wakeUp, hphase])]
      exact hs.early d hd
    | waiting ts d' =>
      cases hpong : s.watchdog.pong with
      | true =>
        rw [hprompt.stay (by rw [wakeUp, hphase, hpong]; rfl)]
        exact hs.early d hd
      | false =>
        rw [hphase] at hd
        cases hd
        obtain ⟨ping, hping, hdeadline⟩ := hs.onTheWay hphase hpong hprompt.1
        rw [hdeadline]
        exact Nat.lt_of_le_of_lt (hanswering ping hping) (Nat.add_lt_add_left hs.short _)
    | _ => rw [hphase] at hd; cases hd

/-- The arrival of the next response. -/
lemma Responsive.receive (hs : s.Responsive rtt) {ping : Ping} {responses : List Ping} {clock : UInt64}
    {w : Watchdog} (hresponses : s.responses = ping :: responses)
    (hw : s.watchdog.step (.response ping.ts clock) = some w) :
    Responsive rtt
      { s with watchdog := w, responses := responses, lastHeard := s.watchdog.now } := by
  obtain ⟨hhandling, rfl⟩ := response_eq hw
  have hflight : s.inFlight = ping :: (responses ++ s.requests) := by
    rw [inFlight, hresponses]
    rfl
  refine ⟨hs.short, fun p hp => hs.timely p ?_, hs.last, fun ts hround => ?_, hs.early, hs.kept⟩
  · rw [hflight]
    exact List.mem_cons_of_mem _ hp
  · rcases hs.answer ts hround with ⟨before, sentAt, hlast, hat, hdl⟩ | hstored
    · rw [hflight] at hlast
      cases before with
      | nil =>
        -- the answer itself
        obtain ⟨hhead, htail⟩ := List.cons_eq_cons.mp hlast
        exact .inr ⟨htail, congrArg Ping.ts hhead, fun _ _ => .inr rfl⟩
      | cons p before =>
        exact .inl ⟨before, sentAt, (List.cons_eq_cons.mp hlast).2, hat, hdl⟩
    · exact absurd (hflight.symm.trans hstored.1) (List.cons_ne_nil _ _)

/-- What a step preserves. -/
lemma Responsive.step (hs : s.Responsive rtt) (hprompt : s.Prompt e) (hanswering : s.Answering rtt e)
    (h : s.step e = some s') : s'.Responsive rtt := by
  cases stepped h with
  | ticked ts hphase hdue =>
    refine ⟨hs.short, hs.timely, fun ts' h => ?_, fun _ h => (nomatch h), fun _ h => (nomatch h),
      fun hdisconnect => ?_⟩
    · cases h
      rfl
    · rw [hs.kept hdisconnect] at hphase
      cases hphase
  | sent ts hphase =>
    refine ⟨hs.short, fun ping hping => ?_, fun _ h => (nomatch h), fun ts' hround => .inl ?_,
      fun _ h => (nomatch h), fun hdisconnect => ?_⟩
    · rw [inFlight, ← List.append_assoc] at hping
      rcases List.mem_append.mp hping with hping | hping
      · exact hs.timely ping hping
      · rw [List.mem_singleton.mp hping]
        exact Nat.le_add_right _ _
    · cases hround
      refine ⟨s.inFlight, s.watchdog.now, ?_, fun _ => rfl, fun _ h => (nomatch h)⟩
      rw [inFlight, ← List.append_assoc, hs.last ts hphase]
      rfl
    · rw [hs.kept hdisconnect] at hphase
      cases hphase
  | sendFailed ts hphase =>
    exact ⟨hs.short, hs.timely, fun _ h => (nomatch h), fun _ h => (nomatch h), fun _ h => (nomatch h),
      fun _ => rfl⟩
  | task w htask => exact hs.task htask
  | responded ping requests hrequests =>
    have hflight : inFlight { s with requests := requests, responses := s.responses ++ [ping] } =
        s.inFlight := by
      rw [inFlight, inFlight, hrequests, List.append_assoc]
      rfl
    refine ⟨hs.short, fun p hp => hs.timely p (hflight ▸ hp), hs.last, fun ts hround => ?_, hs.early,
      hs.kept⟩
    rcases hs.answer ts hround with ⟨before, sentAt, hlast, hrest⟩ | hstored
    · exact .inl ⟨before, sentAt, hflight.trans hlast, hrest⟩
    · exact .inr ⟨hflight.trans hstored.1, hstored.2⟩
  | dropped ping requests hrequests => cases hanswering
  | received ping responses clock hresponses w hw => exact hs.receive hresponses hw
  | notified hhandling =>
    refine ⟨hs.short, hs.timely, hs.last, fun ts hround => ?_, hs.early, hs.kept⟩
    rcases hs.answer ts hround with houtstanding | hstored
    · exact .inl houtstanding
    · exact .inr ⟨hstored.1, hstored.2.1, fun _ _ => .inl rfl⟩
  | passed ms => exact hs.pass hprompt hanswering

/-- If time passes only while the tasks wait, a peer that answers every Heartbeat before the timeout is
never reported, whatever the clock reads: the watchdog ends the connection only if it cannot send. -/
theorem responsive_peer_kept (interval heartbeatTimeout rtt : ℕ) (now : Instant) (es : List Event)
    (hrtt : rtt < heartbeatTimeout)
    (h : Exec.Guarded step (fun s e => s.Prompt e ∧ s.Answering rtt e)
      (new interval heartbeatTimeout now) es) :
    Exec.Always step (fun s => s.watchdog.disconnect = true → s.watchdog.phase = .sendFailed)
      (new interval heartbeatTimeout now) es :=
  Exec.always_of_guarded (fun _ _ _ hguard hs hstep => Responsive.step hs hguard.1 hguard.2 hstep)
    (fun _ hs => hs.kept) (Responsive.of_new interval heartbeatTimeout now hrtt) h

/-- Two rounds; the clock is set back before the second. -/
def answeredRounds : List Event :=
  [.pass 1000, .tick 5000, .send true, .task, .task, .task, .pass 30, .respond true, .pass 10, .receive 5040,
    .notify, .task, .task, .pass 960, .tick 700, .send true, .task, .task, .respond true, .pass 50,
    .receive 750, .notify, .pass 950]

/-- Two answered rounds. -/
theorem responsive_peer_kept_twice :
    ∃ s, Exec.run step (new 1000 3000 0) answeredRounds = some s ∧ s.watchdog.rounds.length = 2 ∧
      (s.watchdog.disconnect = true → s.watchdog.phase = .sendFailed) := by
  have hal := responsive_peer_kept 1000 3000 60 0 answeredRounds (by decide) (by decide)
  obtain ⟨s, hrun, hs⟩ := Option.map_eq_some_iff.mp (show
    (Exec.run step (new 1000 3000 0) answeredRounds).map (fun s => s.watchdog.rounds.length) = some 2 by
      decide)
  exact ⟨s, hrun, hs, hal.last hrun⟩

/-! ## A silent peer is reported -/

/-- How far a run can be without a new response. -/
def Within (s : Link) : Prop :=
  match s.watchdog.phase with
  | .idle =>
    s.nextTick ≤ s.lastHeard + s.interval ∧ s.watchdog.now ≤ s.lastHeard + s.interval
  | .sending _ =>
    s.tickedAt ≤ s.lastHeard + s.interval ∧ s.watchdog.now ≤ s.tickedAt + controlSendTimeout
  | .sent _ => s.watchdog.now ≤ s.lastHeard + s.interval + controlSendTimeout
  | .looking _ deadline =>
    deadline ≤ s.lastHeard + s.interval + controlSendTimeout + s.watchdog.heartbeatTimeout ∧
      s.watchdog.now ≤ deadline
  | .unanswered _ deadline =>
    deadline ≤ s.lastHeard + s.interval + controlSendTimeout + s.watchdog.heartbeatTimeout ∧
      s.watchdog.now ≤ deadline
  | .waiting _ deadline =>
    deadline ≤ s.lastHeard + s.interval + controlSendTimeout + s.watchdog.heartbeatTimeout ∧
      s.watchdog.now ≤ deadline
  | .sendFailed => True
  | .timedOut _ _ => True

/-- The invariant of the runs in which the clock goes on. -/
structure Vigilant (s : Link) : Prop where
  sound : s.watchdog.Inv
  /-- No echo is above the last `ts`. -/
  echo : s.watchdog.pongTs ≤ s.lastTs
  onTheWay : ∀ ping ∈ s.inFlight, ping.ts ≤ s.lastTs
  /-- A round starts above all echoes, also above those to come. -/
  fresh : ∀ ts, s.watchdog.phase = .sending ts →
    s.lastTs = ts ∧ s.watchdog.pongTs < ts ∧ ∀ ping ∈ s.inFlight, ping.ts < ts
  ticks : s.nextTick ≤ s.tickedAt + s.interval ∧ s.tickedAt ≤ s.watchdog.now
  /-- An answer is seen at once. -/
  answered : ∀ ts, s.watchdog.phase.round = some ts → ts ≤ s.watchdog.pongTs →
    s.lastHeard = s.watchdog.now ∧
      ∀ deadline, s.watchdog.phase = .unanswered ts deadline ∨ s.watchdog.phase = .waiting ts deadline →
        s.watchdog.pong = true ∨ s.watchdog.handling = true
  past : s.lastHeard ≤ s.watchdog.now
  within : s.Within

/-- A new link is vigilant. -/
lemma Vigilant.of_new (interval heartbeatTimeout : ℕ) (now : Instant) :
    Vigilant (new interval heartbeatTimeout now) where
  sound := .of_new heartbeatTimeout now
  echo := UInt64.le_refl 0
  onTheWay ping hping := by cases hping
  fresh ts hphase := by cases hphase
  ticks := ⟨Nat.le_refl _, Nat.le_refl _⟩
  answered ts hround := by cases hround
  past := Nat.le_refl _
  within := ⟨Nat.le_refl _, Nat.le_add_right _ _⟩

/-- As long as the watchdog has not ended the connection, the last response is not too old. -/
lemma Within.le (h : s.Within) (hended : ¬s.watchdog.phase.Ended) :
    s.watchdog.now ≤
      s.lastHeard + (s.interval + controlSendTimeout + s.watchdog.heartbeatTimeout) := by
  unfold Within at h
  dsimp only [Instant] at *
  cases hphase : s.watchdog.phase <;> rw [hphase] at h hended
  case sendFailed => exact absurd trivial hended
  case timedOut ts deadline => exact absurd trivial hended
  all_goals
    simp only at h
    omega

/-- A new response only widens the bounds. -/
lemma Within.hear (h : s.Within) {t : Instant} (ht : s.lastHeard ≤ t) :
    Within { s with lastHeard := t } := by
  unfold Within at h ⊢
  dsimp only [Instant] at *
  cases hphase : s.watchdog.phase <;> rw [hphase] at h
  case sendFailed => trivial
  case timedOut ts deadline => trivial
  all_goals
    simp only at h ⊢
    omega

/-- The watchdog takes its own steps only. -/
lemma step_watchdog (h : s.step e = some s') :
    s'.watchdog = s.watchdog ∨ ∃ a, s.watchdog.step a = some s'.watchdog := by
  cases e with
  | tick ts =>
    simp only [step] at h
    split at h
    · obtain ⟨w, hw, rfl⟩ := Option.map_eq_some_iff.mp h
      exact .inr ⟨_, hw⟩
    · cases h
  | send ok =>
    obtain ⟨w, hw, rfl⟩ := Option.map_eq_some_iff.mp h
    exact .inr ⟨_, hw⟩
  | task =>
    obtain ⟨w, hw, rfl⟩ := Option.map_eq_some_iff.mp h
    exact .inr ⟨_, hw⟩
  | respond ok =>
    simp only [step] at h
    split at h
    · cases h
    · cases h
      exact .inl rfl
  | receive clock =>
    simp only [step] at h
    split at h
    · cases h
    · obtain ⟨w, hw, rfl⟩ := Option.map_eq_some_iff.mp h
      exact .inr ⟨_, hw⟩
  | notify =>
    obtain ⟨w, hw, rfl⟩ := Option.map_eq_some_iff.mp h
    exact .inr ⟨_, hw⟩
  | pass ms =>
    cases h
    exact .inr ⟨.pass ms, rfl⟩

/-- The settings of the connection stay as they are. -/
lemma step_settings (h : s.step e = some s') :
    s'.interval = s.interval ∧ s'.watchdog.heartbeatTimeout = s.watchdog.heartbeatTimeout := by
  cases stepped h with
  | task w htask => cases Watchdog.taskStep_cases htask <;> exact ⟨rfl, rfl⟩
  | received ping responses clock hresponses w hw =>
    obtain ⟨_, rfl⟩ := response_eq hw
    exact ⟨rfl, rfl⟩
  | _ => exact ⟨rfl, rfl⟩

/-- Each round starts above the last echo. -/
lemma Vigilant.sound_step (hs : s.Vigilant) (h : s.step e = some s') : s'.watchdog.Inv := by
  rcases step_watchdog h with heq | ⟨a, ha⟩
  · rw [heq]
    exact hs.sound
  · exact hs.sound.step (fun ts hphase _ => (hs.fresh ts hphase).2.1) ha

/-- Moving on within a round. -/
lemma Vigilant.round (hs : s.Vigilant) {p : Phase} {pong : Bool}
    (hinv : Watchdog.Inv { s.watchdog with phase := p, pong := pong })
    (hround : s.watchdog.phase.round = some ts) (hp : p.round = some ts)
    (hanswered : ts ≤ s.watchdog.pongTs → ∀ d, p = .unanswered ts d ∨ p = .waiting ts d →
      pong = true ∨ s.watchdog.handling = true)
    (hwithin : Within { s with watchdog := { s.watchdog with phase := p, pong := pong } }) :
    Vigilant { s with watchdog := { s.watchdog with phase := p, pong := pong } } where
  sound := hinv
  echo := hs.echo
  onTheWay := hs.onTheWay
  fresh ts' hphase := by
    rw [show p = .sending ts' from hphase] at hp
    cases hp
  ticks := hs.ticks
  answered ts' hround' hle := by
    rw [show p.round = some ts' from hround'] at hp
    cases hp
    exact ⟨(hs.answered ts hround hle).1, hanswered hle⟩
  past := hs.past
  within := hwithin

/-- What a step of the heartbeat task preserves. -/
lemma Vigilant.task (hs : s.Vigilant) {w : Watchdog} (h : s.watchdog.taskStep = some w) :
    Vigilant { s with watchdog := w } := by
  have hinv := hs.sound.taskStep h
  have hwithin := hs.within
  unfold Within at hwithin
  cases Watchdog.taskStep_cases h with
  | enter ts hphase =>
    rw [hphase] at hwithin
    have hround : s.watchdog.phase.round = some ts := by rw [hphase]; rfl
    refine hs.round hinv hround rfl (fun _ d h => ?_) ⟨?_, ?_⟩
    · rcases h with h | h <;> cases h
    · exact Nat.add_le_add_right hwithin _
    · exact Nat.le_add_right _ _
  | answered ts d hphase hle =>
    -- the response was received just now
    have hnow := (hs.answered ts (by rw [hphase]; rfl) hle).1
    refine ⟨hinv, hs.echo, hs.onTheWay, fun _ h => (nomatch h), hs.ticks, fun _ h => (nomatch h), hs.past,
      ⟨?_, ?_⟩⟩
    · rw [hnow]
      exact Nat.le_trans hs.ticks.1 (Nat.add_le_add_right hs.ticks.2 _)
    · rw [hnow]
      exact Nat.le_add_right _ _
  | below ts d hphase =>
    have hbelow := below_of_taskStep hphase h (by simp)
    rw [hphase] at hwithin
    have hround : s.watchdog.phase.round = some ts := by rw [hphase]; rfl
    exact hs.round hinv hround rfl
      (fun hle => absurd hle (UInt64.not_le.mpr hbelow)) hwithin
  | wait ts d hphase =>
    have hround : s.watchdog.phase.round = some ts := by rw [hphase]; rfl
    rw [hphase] at hwithin
    exact hs.round hinv hround rfl
      (fun hle _ _ => (hs.answered ts hround hle).2 d (.inl hphase)) hwithin
  | notified ts d hphase =>
    rw [hphase] at hwithin
    have hround : s.watchdog.phase.round = some ts := by rw [hphase]; rfl
    refine hs.round hinv hround rfl (fun _ d h => ?_) hwithin
    rcases h with h | h <;> cases h
  | timedOut ts d hphase hle =>
    exact ⟨hinv, hs.echo, hs.onTheWay, fun _ h => (nomatch h), hs.ticks, fun _ h => (nomatch h), hs.past,
      trivial⟩

/-- Time passes while no answer is there to be seen. -/
lemma Vigilant.pass (hs : s.Vigilant) {ms : ℕ} (hprompt : s.Prompt (.pass ms))
    (hinv : Watchdog.Inv { s.watchdog with now := s.watchdog.now + ms }) :
    Vigilant { s with watchdog := { s.watchdog with now := s.watchdog.now + ms } } := by
  have hwithin := hs.within
  unfold Within at hwithin
  refine ⟨hinv, hs.echo, hs.onTheWay, hs.fresh, ⟨hs.ticks.1, Nat.le_add_right_of_le hs.ticks.2⟩,
    fun ts hround hle => ?_, Nat.le_add_right_of_le hs.past, ?_⟩
  · change s.watchdog.phase.round = some ts at hround
    have hanswered := hs.answered ts hround hle
    suffices hms : ms = 0 by
      rw [hms]
      exact hanswered
    cases hphase : s.watchdog.phase with
    | sent ts' => exact hprompt.stay (by rw [wakeUp, hphase])
    | looking ts' d => exact hprompt.stay (by rw [wakeUp, hphase])
    | unanswered ts' d => exact hprompt.stay (by rw [wakeUp, hphase])
    | waiting ts' d =>
      rw [hphase] at hround
      cases hround
      have hpong : s.watchdog.pong = true :=
        (hanswered.2 d (.inr hphase)).resolve_right (by rw [hprompt.1]; exact Bool.false_ne_true)
      exact hprompt.stay (by rw [wakeUp, hphase, hpong]; rfl)
    | _ => rw [hphase] at hround; cases hround
  · unfold Within
    cases hphase : s.watchdog.phase with
    | idle =>
      rw [hphase] at hwithin
      exact ⟨hwithin.1,
        Nat.le_trans (hprompt.2 s.nextTick (by rw [wakeUp, hphase]; rfl)) hwithin.1⟩
    | sending ts =>
      rw [hphase] at hwithin
      exact ⟨hwithin.1, hprompt.2 _ (by rw [wakeUp, hphase]; rfl)⟩
    | sent ts =>
      rw [hphase] at hwithin
      rw [hprompt.stay (by rw [wakeUp, hphase])]
      exact hwithin
    | looking ts d =>
      rw [hphase] at hwithin
      rw [hprompt.stay (by rw [wakeUp, hphase])]
      exact hwithin
    | unanswered ts d =>
      rw [hphase] at hwithin
      rw [hprompt.stay (by rw [wakeUp, hphase])]
      exact hwithin
    | waiting ts d =>
      rw [hphase] at hwithin
      cases hpong : s.watchdog.pong with
      | true =>
        rw [hprompt.stay (by rw [wakeUp, hphase, hpong]; rfl)]
        exact hwithin
      | false => exact ⟨hwithin.1, hprompt.2 d (by rw [wakeUp, hphase, hpong]; rfl)⟩
    | sendFailed => trivial
    | timedOut ts d => trivial

/-- What a step preserves. -/
lemma Vigilant.step (hs : s.Vigilant) (hprompt : s.Prompt e) (hforward : s.Forward e)
    (h : s.step e = some s') : s'.Vigilant := by
  have hinv := hs.sound_step h
  have hwithin := hs.within
  unfold Within at hwithin
  cases stepped h with
  | ticked ts hphase hdue =>
    rw [hphase] at hwithin
    -- the new reading is above the last one, and so above every echo that can be on the way
    have hlt : s.lastTs < ts := hforward
    refine ⟨hinv, UInt64.le_of_lt (UInt64.lt_of_le_of_lt hs.echo hlt),
      fun ping hping => UInt64.le_of_lt (UInt64.lt_of_le_of_lt (hs.onTheWay ping hping) hlt), fun ts' h => ?_,
      ⟨Nat.add_le_add_right hdue _, Nat.le_refl _⟩, fun _ h => (nomatch h), hs.past,
      ⟨hwithin.2, Nat.le_add_right _ _⟩⟩
    cases h
    exact ⟨rfl, UInt64.lt_of_le_of_lt hs.echo hlt,
      fun ping hping => UInt64.lt_of_le_of_lt (hs.onTheWay ping hping) hlt⟩
  | sent ts hphase =>
    rw [hphase] at hwithin
    refine ⟨hinv, hs.echo, fun ping hping => ?_, fun _ h => (nomatch h), hs.ticks, fun ts' hround hle => ?_,
      hs.past, ?_⟩
    · rw [inFlight, ← List.append_assoc] at hping
      rcases List.mem_append.mp hping with hping | hping
      · exact hs.onTheWay ping hping
      · rw [List.mem_singleton.mp hping]
        exact UInt64.le_refl _
    · cases hround
      exact absurd hle (UInt64.not_le.mpr (hs.fresh ts hphase).2.1)
    · exact Nat.le_trans hwithin.2 (Nat.add_le_add_right hwithin.1 _)
  | sendFailed ts hphase =>
    exact ⟨hinv, hs.echo, hs.onTheWay, fun _ h => (nomatch h), hs.ticks, fun _ h => (nomatch h), hs.past,
      trivial⟩
  | task w htask => exact hs.task htask
  | responded ping requests hrequests =>
    have hmem : ∀ p ∈ inFlight { s with requests := requests, responses := s.responses ++ [ping] },
        p ∈ s.inFlight := by
      intro p hp
      rw [inFlight, hrequests]
      simpa [inFlight, or_assoc] using hp
    exact ⟨hinv, hs.echo, fun p hp => hs.onTheWay p (hmem p hp),
      fun ts hphase => ⟨(hs.fresh ts hphase).1, (hs.fresh ts hphase).2.1,
        fun p hp => (hs.fresh ts hphase).2.2 p (hmem p hp)⟩,
      hs.ticks, hs.answered, hs.past, hs.within⟩
  | dropped ping requests hrequests =>
    have hmem : ∀ p ∈ inFlight { s with requests := requests }, p ∈ s.inFlight := by
      intro p hp
      rw [inFlight, hrequests]
      rcases List.mem_append.mp hp with hp | hp
      · exact List.mem_append_left _ hp
      · exact List.mem_append_right _ (List.mem_cons_of_mem _ hp)
    exact ⟨hinv, hs.echo, fun p hp => hs.onTheWay p (hmem p hp),
      fun ts hphase => ⟨(hs.fresh ts hphase).1, (hs.fresh ts hphase).2.1,
        fun p hp => (hs.fresh ts hphase).2.2 p (hmem p hp)⟩,
      hs.ticks, hs.answered, hs.past, hs.within⟩
  | received ping responses clock hresponses w hw =>
    obtain ⟨hhandling, rfl⟩ := response_eq hw
    have hmem : ∀ p, p = ping ∨ p ∈ responses ++ s.requests → p ∈ s.inFlight := by
      intro p hp
      rw [inFlight, hresponses]
      rcases hp with rfl | hp
      · exact List.mem_cons_self
      · exact List.mem_cons_of_mem _ hp
    exact ⟨hinv, hs.onTheWay ping (hmem ping (.inl rfl)), fun p hp => hs.onTheWay p (hmem p (.inr hp)),
      fun ts hphase => ⟨(hs.fresh ts hphase).1, (hs.fresh ts hphase).2.2 ping (hmem ping (.inl rfl)),
        fun p hp => (hs.fresh ts hphase).2.2 p (hmem p (.inr hp))⟩,
      hs.ticks, fun _ _ _ => ⟨rfl, fun _ _ => .inr rfl⟩, Nat.le_refl _, hs.within.hear hs.past⟩
  | notified hhandling =>
    exact ⟨hinv, hs.echo, hs.onTheWay, hs.fresh, hs.ticks,
      fun ts hround hle => ⟨(hs.answered ts hround hle).1, fun _ _ => .inl rfl⟩, hs.past, hs.within⟩
  | passed ms => exact hs.pass hprompt hinv

/-- If each round reads a later time than the round before, and time passes only while the tasks wait, the
watchdog is sound, and it has reported a peer that is silent for longer than an interval, the time a send
may take and the timeout. -/
theorem silent_peer_reported (interval heartbeatTimeout : ℕ) (now : Instant) (es : List Event)
    (h : Exec.Guarded step (fun s e => s.Prompt e ∧ s.Forward e) (new interval heartbeatTimeout now) es) :
    Exec.Always step
      (fun s => s.watchdog.Sound ∧
        (s.lastHeard + (interval + controlSendTimeout + heartbeatTimeout) < s.watchdog.now →
          s.watchdog.disconnect = true))
      (new interval heartbeatTimeout now) es := by
  refine Exec.always_of_guarded
    (I := fun s => s.Vigilant ∧ s.interval = interval ∧ s.watchdog.heartbeatTimeout = heartbeatTimeout)
    (fun s e s' hguard hs hstep => ?_) (fun s hs => ⟨hs.1.sound.sound, fun hlt => ?_⟩)
    ⟨Vigilant.of_new interval heartbeatTimeout now, rfl, rfl⟩ h
  · obtain ⟨hinterval, htimeout⟩ := step_settings hstep
    exact ⟨hs.1.step hguard.1 hguard.2 hstep, hinterval.trans hs.2.1, htimeout.trans hs.2.2⟩
  · refine Decidable.byContradiction fun hdisconnect => absurd hlt (Nat.not_lt.mpr ?_)
    rw [← hs.2.1, ← hs.2.2]
    exact hs.1.within.le (mt hs.1.sound.disconnected.mpr hdisconnect)

/-- A round that is answered after 40 ms; then the peer does not answer any more, and is reported.
-/
def fallsSilent : List Event :=
  [.pass 1000, .tick 5000, .send true, .task, .task, .task, .pass 30, .respond true, .pass 10, .receive 5040,
    .notify, .task, .task, .pass 960, .tick 6000, .send true, .task, .task, .task, .respond false, .pass 3000,
    .task, .pass 7000]

/-- In this run, the watchdog has not reported the peer before its silence, and has reported it
after. -/
theorem silent_peer_reported_after :
    (∃ s, Exec.run step (new 1000 3000 0) (fallsSilent.take 14) = some s ∧
      s.watchdog.disconnect = false ∧ s.lastHeard = 1040) ∧
    ∃ s, Exec.run step (new 1000 3000 0) fallsSilent = some s ∧ s.watchdog.now = 12000 ∧
      s.watchdog.disconnect = true := by
  have hguard : Exec.Guarded step (fun s e => s.Prompt e ∧ s.Forward e) (new 1000 3000 0) fallsSilent := by
    decide
  have hal := silent_peer_reported 1000 3000 0 fallsSilent hguard
  obtain ⟨s, hrun, hs⟩ := Option.map_eq_some_iff.mp (show
    (Exec.run step (new 1000 3000 0) fallsSilent).map (fun s => (s.lastHeard, s.watchdog.now)) =
      some (1040, 12000) by decide)
  simp only [Prod.mk.injEq] at hs
  obtain ⟨hheard, hnow⟩ := hs
  obtain ⟨s₁, hrun₁, hs₁⟩ := Option.map_eq_some_iff.mp (show
    (Exec.run step (new 1000 3000 0) (fallsSilent.take 14)).map
      (fun s => (s.watchdog.disconnect, s.lastHeard)) = some (false, 1040) by decide)
  simp only [Prod.mk.injEq] at hs₁
  refine ⟨⟨s₁, hrun₁, hs₁.1, hs₁.2⟩, s, hrun, hnow, (hal.last hrun).2 ?_⟩
  rw [hheard, hnow]
  decide

end Link

end Heartbeat

end Rfrp
