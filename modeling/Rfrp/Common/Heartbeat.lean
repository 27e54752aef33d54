import Rfrp.Common.Protocol
import Rfrp.Lib.Exec

/-!
# The heartbeat of a control connection

The watchdog that `handle_control_login` (`crates/rfrps/src/control.rs`) and `control_loop`
(`crates/rfrpc/src/control.rs`) start, with the same code on both sides.  In each round the task sends
`Heartbeat` with the reading of the system clock and waits until the last echo the reader has stored,
`pong_ts`, is not below it; a round without an answer until its deadline notifies `disconnect`.

The echo is what the peer has put into `HeartbeatResp`, and the clock may step, so that an old echo can
pass for the answer to a later round.  The watchdog is sound along a run exactly when each round starts
above the last echo (`heartbeat_sound_iff`).
-/

namespace Rfrp

namespace Heartbeat

/-- Where the heartbeat task is. -/
inductive Phase where
  /-- In `iv.tick()`. -/
  | idle
  /-- In `send_with_timeout`. -/
  | sending (ts : UInt64)
  /-- The Heartbeat is in the outbound channel. -/
  | sent (ts : UInt64)
  /-- In front of the look at `pong_ts`. -/
  | looking (ts : UInt64) (deadline : Instant)
  /-- The last look has seen an echo below `ts`. -/
  | unanswered (ts : UInt64) (deadline : Instant)
  /-- In `timeout(remaining, pong.notified())`. -/
  | waiting (ts : UInt64) (deadline : Instant)
  /-- The send has failed, and the task has ended. -/
  | sendFailed
  /-- The deadline has passed, and the task has ended. -/
  | timedOut (ts : UInt64) (deadline : Instant)
  deriving DecidableEq, Repr

/-- A round that was judged answered, and whether a HeartbeatResp was received after its Heartbeat was
sent. -/
structure Round where
  ts : UInt64
  heard : Bool
  deriving DecidableEq, Repr

/-- The heartbeat task and what it shares with the reader of the control connection: `pong_ts`, and
whether `pong` holds a permit and `disconnect` was notified.  `handling` tells that the reader has
stored an echo and is about to notify; `heard` and `rounds` are history. -/
structure Watchdog where
  phase : Phase
  pongTs : UInt64
  pong : Bool
  disconnect : Bool
  handling : Bool
  rttMs : UInt64
  now : Instant
  heartbeatTimeout : ℕ
  heard : Bool
  rounds : List Round
  deriving DecidableEq, Repr

/-- What can happen next. -/
inductive Action where
  /-- The tick of a round, with the reading of the system clock. -/
  | tick (ts : UInt64)
  /-- `send_with_timeout` returns. -/
  | send (ok : Bool)
  /-- The heartbeat task goes on. -/
  | task
  /-- The reader receives a HeartbeatResp and stores its echo; the clock is read for the metrics. -/
  | response (ts clock : UInt64)
  /-- The reader notifies the task. -/
  | notify
  /-- Time passes. -/
  | pass (ms : ℕ)
  deriving DecidableEq

namespace Watchdog

/-- The watchdog of a new control connection. -/
def new (heartbeatTimeout : ℕ) (now : Instant) : Watchdog where
  phase := .idle
  pongTs := 0
  pong := false
  disconnect := false
  handling := false
  rttMs := 0
  now := now
  heartbeatTimeout := heartbeatTimeout
  heard := false
  rounds := []

/-- A step of the heartbeat task in a round; `none` when it has to wait. -/
def taskStep (s : Watchdog) : Option Watchdog :=
  match s.phase with
  | .sent ts => some { s with phase := .looking ts (s.now + s.heartbeatTimeout) }
  | .looking ts deadline =>
    if s.pongTs ≥ ts then
      some { s with phase := .idle, rounds := s.rounds ++ [⟨ts, s.heard⟩] }
    else
      some { s with phase := .unanswered ts deadline }
  | .unanswered ts deadline =>
    if deadline - s.now = 0 then
      some { s with phase := .timedOut ts deadline, disconnect := true }
    else
      some { s with phase := .waiting ts deadline }
  | .waiting ts deadline =>
    if s.pong then
      some { s with phase := .looking ts deadline, pong := false }
    else if deadline ≤ s.now then
      some { s with phase := .timedOut ts deadline, disconnect := true }
    else
      none
  | _ => none

/-- One step. -/
def step (s : Watchdog) : Action → Option Watchdog
  | .tick ts =>
    match s.phase with
    | .idle => some { s with phase := .sending ts }
    | _ => none
  | .send ok =>
    match s.phase with
    | .sending ts =>
      if ok then some { s with phase := .sent ts, heard := false }
      else some { s with phase := .sendFailed, disconnect := true }
    | _ => none
  | .task => s.taskStep
  | .response ts clock =>
    if s.handling then none
    else
      some { s with
        pongTs := ts, handling := true, rttMs := if clock ≥ ts then clock - ts else 0, heard := true }
  | .notify => if s.handling then some { s with pong := true, handling := false } else none
  | .pass ms => some { s with now := s.now + ms }

/-- The heartbeat task runs until it has to wait, for at most `n` steps. -/
def poll : ℕ → Watchdog → Watchdog
  | 0, s => s
  | n + 1, s =>
    match s.taskStep with
    | none => s
    | some s => poll n s

end Watchdog

/-! ## Soundness -/

namespace Phase

/-- The `ts` of the round whose Heartbeat was sent and that is not judged yet. -/
def round : Phase → Option UInt64
  | sent ts => some ts
  | looking ts _ => some ts
  | unanswered ts _ => some ts
  | waiting ts _ => some ts
  | _ => none

/-- The deadline of that round, once it is set. -/
def deadline : Phase → Option Instant
  | looking _ deadline => some deadline
  | unanswered _ deadline => some deadline
  | waiting _ deadline => some deadline
  | _ => none

/-- The task has ended. -/
def Ended : Phase → Prop
  | sendFailed => True
  | timedOut _ _ => True
  | _ => False

end Phase

namespace Watchdog

variable {s s' : Watchdog} {ts : UInt64} {deadline : Instant} {a : Action}

/-- The soundness of the watchdog in one state. -/
structure Sound (s : Watchdog) : Prop where
  /-- A round was judged answered only if a HeartbeatResp was received after its Heartbeat was sent. -/
  answered : ∀ r ∈ s.rounds, r.heard = true
  /-- As long as none is received in the current round, the task does not judge it answered. -/
  passing : ∀ ts, s.phase.round = some ts → s.heard = false → ∀ n, (s.poll n).rounds = s.rounds
  /-- A peer that has not responded in the current round is reported at its deadline. -/
  reported : ∀ ts deadline, s.phase.round = some ts → s.phase.deadline = some deadline →
    s.heard = false → deadline ≤ s.now →
    (s.poll 3).phase = .timedOut ts deadline ∧ (s.poll 3).disconnect = true
  /-- No peer is reported for its silence before. -/
  timely : ∀ ts deadline, s.phase = .timedOut ts deadline → deadline ≤ s.now
  /-- `disconnect` is notified exactly when the task has ended. -/
  disconnected : s.disconnect = true ↔ s.phase.Ended

/-- What the code relies on: a round starts above the last echo. -/
def Fresh (s : Watchdog) (a : Action) : Prop :=
  ∀ ts, s.phase = .sending ts → a = .send true → s.pongTs < ts

/-- The invariant of the runs whose rounds start above the last echo. -/
structure Inv (s : Watchdog) : Prop where
  answered : ∀ r ∈ s.rounds, r.heard = true
  /-- Until a HeartbeatResp is received, the last echo is an old one. -/
  below : ∀ ts, s.phase.round = some ts → s.heard = false → s.pongTs < ts
  timely : ∀ ts deadline, s.phase = .timedOut ts deadline → deadline ≤ s.now
  disconnected : s.disconnect = true ↔ s.phase.Ended

/-- A new watchdog has the invariant. -/
lemma Inv.of_new (heartbeatTimeout : ℕ) (now : Instant) : (new heartbeatTimeout now).Inv where
  answered r hr := by cases hr
  below ts h := by cases h
  timely ts deadline h := by cases h
  disconnected := by simp [new, Phase.Ended]

/-- The steps of the task in a round. -/
inductive TaskStep (s : Watchdog) : Watchdog → Prop where
  | enter (ts : UInt64) (hphase : s.phase = .sent ts) :
    TaskStep s { s with phase := .looking ts (s.now + s.heartbeatTimeout) }
  | answered (ts : UInt64) (deadline : Instant) (hphase : s.phase = .looking ts deadline)
    (hle : ts ≤ s.pongTs) :
    TaskStep s { s with phase := .idle, rounds := s.rounds ++ [⟨ts, s.heard⟩] }
  | below (ts : UInt64) (deadline : Instant) (hphase : s.phase = .looking ts deadline) :
    TaskStep s { s with phase := .unanswered ts deadline }
  | wait (ts : UInt64) (deadline : Instant) (hphase : s.phase = .unanswered ts deadline) :
    TaskStep s { s with phase := .waiting ts deadline }
  | notified (ts : UInt64) (deadline : Instant) (hphase : s.phase = .waiting ts deadline) :
    TaskStep s { s with phase := .looking ts deadline, pong := false }
  | timedOut (ts : UInt64) (deadline : Instant)
    (hphase : s.phase = .unanswered ts deadline ∨ s.phase = .waiting ts deadline)
    (hle : deadline ≤ s.now) :
    TaskStep s { s with phase := .timedOut ts deadline, disconnect := true }

/-- The steps of the heartbeat task are those of its phases. -/
lemma taskStep_cases (h : s.taskStep = some s') : TaskStep s s' := by
  unfold taskStep at h
  split at h
  · next ts hphase =>
    cases h
    exact .enter ts hphase
  · next ts deadline hphase =>
    split at h
    · next hle => cases h; exact .answered ts deadline hphase hle
    · cases h; exact .below ts deadline hphase
  · next ts deadline hphase =>
    split at h
    · next hle => cases h; exact .timedOut ts deadline (.inl hphase) (Nat.sub_eq_zero_iff_le.mp hle)
    · cases h; exact .wait ts deadline hphase
  · next ts deadline hphase =>
    split at h
    · cases h; exact .notified ts deadline hphase
    split at h
    · next hle => cases h; exact .timedOut ts deadline (.inr hphase) hle
    · cases h
  · cases h

/-- A task that is in a round has not ended. -/
lemma Phase.not_ended_of_round {p : Phase} (h : p.round = some ts) : ¬p.Ended := by
  cases p <;> simp_all [Phase.round, Phase.Ended]

/-- Moving on within a round preserves the invariant. -/
lemma Inv.within (hs : s.Inv) {p : Phase} (pong : Bool) (hphase : s.phase.round = some ts)
    (hp : p.round = some ts) : Inv { s with phase := p, pong := pong } where
  answered := hs.answered
  below ts' hround hheard := hs.below ts' (by rw [hphase, ← hp]; exact hround) hheard
  timely ts' deadline htimed := by
    rw [show p = .timedOut ts' deadline from htimed] at hp
    cases hp
  disconnected := by
    rw [hs.disconnected]
    exact iff_of_false (Phase.not_ended_of_round hphase) (Phase.not_ended_of_round hp)

/-- What a step of the task preserves. -/
lemma Inv.taskStep (hs : s.Inv) (h : s.taskStep = some s') : s'.Inv := by
  cases taskStep_cases h with
  | enter ts hphase => exact hs.within s.pong (by rw [hphase]; rfl) rfl
  | answered ts deadline hphase hle =>
    refine ⟨fun r hr => ?_, fun ts' hround => ?_, fun ts' d hp => ?_, ?_⟩
    · rcases List.mem_append.mp hr with hr | hr
      · exact hs.answered r hr
      · -- an echo that is not below is not an old one
        cases hheard : s.heard with
        | true => rw [List.mem_singleton.mp hr]; exact hheard
        | false => exact absurd hle (UInt64.not_le.mpr (hs.below ts (by rw [hphase]; rfl) hheard))
    · cases hround
    · cases hp
    · rw [hs.disconnected, hphase]
      exact Iff.rfl
  | below ts deadline hphase => exact hs.within s.pong (by rw [hphase]; rfl) rfl
  | wait ts deadline hphase => exact hs.within s.pong (by rw [hphase]; rfl) rfl
  | notified ts deadline hphase => exact hs.within false (by rw [hphase]; rfl) rfl
  | timedOut ts deadline hphase hle =>
    refine ⟨hs.answered, fun ts' hround => ?_, fun ts' d hp => ?_, iff_of_true rfl trivial⟩
    · cases hround
    · cases hp
      exact hle

/-- A step of a round that starts above the last echo preserves the invariant. -/
lemma Inv.step (hs : s.Inv) (hfresh : s.Fresh a) (h : s.step a = some s') : s'.Inv := by
  cases a with
  | tick ts =>
    simp only [Watchdog.step] at h
    split at h
    · next hphase =>
      cases h
      refine ⟨hs.answered, fun ts' hround => ?_, fun ts' d hp => ?_, ?_⟩
      · cases hround
      · cases hp
      · rw [hs.disconnected, hphase]
        exact Iff.rfl
    · cases h
  | send ok =>
    simp only [Watchdog.step] at h
    split at h
    · next ts hphase =>
      cases ok with
      | true =>
        cases h
        refine ⟨hs.answered, fun ts' hround _ => ?_, fun _ _ hp => (nomatch hp), ?_⟩
        · cases hround
          exact hfresh ts hphase rfl
        · rw [hs.disconnected, hphase]
          exact Iff.rfl
      | false =>
        cases h
        exact ⟨hs.answered, fun _ hround => (nomatch hround), fun _ _ hp => (nomatch hp),
          iff_of_true rfl trivial⟩
    · cases h
  | task => exact hs.taskStep h
  | response ts clock =>
    simp only [Watchdog.step] at h
    split at h
    · cases h
    · cases h
      exact ⟨hs.answered, fun _ _ hheard => (nomatch hheard), hs.timely, hs.disconnected⟩
  | notify =>
    simp only [Watchdog.step] at h
    split at h
    · cases h
      exact ⟨hs.answered, hs.below, hs.timely, hs.disconnected⟩
    · cases h
  | pass ms =>
    simp only [Watchdog.step] at h
    cases h
    exact ⟨hs.answered, hs.below,
      fun ts d hp => Nat.le_trans (hs.timely ts d hp) (Nat.le_add_right _ _), hs.disconnected⟩

/-! ## What the task does when it is left to itself -/

/-- A task that can go on does so. -/
lemma poll_succ_of_step (n : ℕ) (h : s.taskStep = some s') : s.poll (n + 1) = s'.poll n := by
  rw [poll, h]

/-- A task that cannot go on stays where it is. -/
lemma poll_of_ended (n : ℕ) (h : s.taskStep = none) : s.poll n = s := by
  cases n with
  | zero => rfl
  | succ n => rw [poll, h]

/-- With an old echo, the task does not judge the round answered. -/
lemma poll_rounds (hround : s.phase.round = some ts) (hbelow : s.pongTs < ts) (n : ℕ) :
    (s.poll n).rounds = s.rounds := by
  induction n generalizing s with
  | zero => rfl
  | succ n ih =>
    cases hstep : s.taskStep with
    | none => rw [poll_of_ended _ hstep]
    | some s' =>
      rw [poll_succ_of_step n hstep]
      cases taskStep_cases hstep with
      | enter ts' hphase => exact ih (by rw [hphase] at hround; exact hround) hbelow
      | answered ts' deadline hphase hle =>
        rw [hphase] at hround
        cases hround
        exact absurd hle (UInt64.not_le.mpr hbelow)
      | below ts' deadline hphase => exact ih (by rw [hphase] at hround; exact hround) hbelow
      | wait ts' deadline hphase => exact ih (by rw [hphase] at hround; exact hround) hbelow
      | notified ts' deadline hphase => exact ih (by rw [hphase] at hround; exact hround) hbelow
      | timedOut ts' deadline hphase hle => rw [poll_of_ended n rfl]

/-- A task that finds no answer to its round begins to wait for one. -/
lemma taskStep_of_looking (hphase : s.phase = .looking ts deadline) (hbelow : s.pongTs < ts) :
    s.taskStep = some { s with phase := .unanswered ts deadline } := by
  rw [taskStep, hphase]
  exact if_neg (UInt64.not_le.mpr hbelow)

/-- A task whose deadline has passed notifies the disconnect. -/
lemma taskStep_of_unanswered (hphase : s.phase = .unanswered ts deadline) (hle : deadline ≤ s.now) :
    s.taskStep = some { s with phase := .timedOut ts deadline, disconnect := true } := by
  rw [taskStep, hphase]
  exact if_pos (Nat.sub_eq_zero_of_le hle)

/-- A task that waits beyond its deadline ends in a timeout. -/
lemma poll_of_unanswered (n : ℕ) (hphase : s.phase = .unanswered ts deadline)
    (hle : deadline ≤ s.now) :
    s.poll (n + 1) = { s with phase := .timedOut ts deadline, disconnect := true } := by
  rw [poll_succ_of_step n (taskStep_of_unanswered hphase hle)]
  exact poll_of_ended n rfl

/-- A task that looks beyond its deadline, and finds no answer, ends in a timeout. -/
lemma poll_of_looking (n : ℕ) (hphase : s.phase = .looking ts deadline) (hbelow : s.pongTs < ts)
    (hle : deadline ≤ s.now) :
    s.poll (n + 2) = { s with phase := .timedOut ts deadline, disconnect := true } := by
  rw [poll_succ_of_step (n + 1) (taskStep_of_looking hphase hbelow)]
  exact poll_of_unanswered n rfl hle

/-- With an old echo, the peer is reported once the deadline has passed. -/
lemma poll_timedOut (hround : s.phase.round = some ts) (hdeadline : s.phase.deadline = some deadline)
    (hbelow : s.pongTs < ts) (hle : deadline ≤ s.now) :
    (s.poll 3).phase = .timedOut ts deadline ∧ (s.poll 3).disconnect = true := by
  cases hphase : s.phase with
  | looking ts' d =>
    rw [hphase] at hround hdeadline
    cases hround
    cases hdeadline
    rw [poll_of_looking 1 hphase hbelow hle]
    exact ⟨rfl, rfl⟩
  | unanswered ts' d =>
    rw [hphase] at hround hdeadline
    cases hround
    cases hdeadline
    rw [poll_of_unanswered 2 hphase hle]
    exact ⟨rfl, rfl⟩
  | waiting ts' d =>
    rw [hphase] at hround hdeadline
    cases hround
    cases hdeadline
    cases hpong : s.pong with
    | true =>
      -- a permit left over from an earlier response costs one more look
      have hnotified : s.taskStep = some { s with phase := .looking ts deadline, pong := false } := by
        rw [taskStep, hphase]
        exact if_pos hpong
      have hlook : poll 2 { s with phase := .looking ts deadline, pong := false } = _ :=
        poll_of_looking 0 rfl hbelow hle
      rw [poll_succ_of_step 2 hnotified, hlook]
      exact ⟨rfl, rfl⟩
    | false =>
      have htimed : s.taskStep =
          some { s with phase := .timedOut ts deadline, disconnect := true } := by
        rw [taskStep, hphase]
        simp [hpong, hle]
      have hended : poll 2 { s with phase := .timedOut ts deadline, disconnect := true } = _ :=
        poll_of_ended 2 rfl
      rw [poll_succ_of_step 2 htimed, hended]
      exact ⟨rfl, rfl⟩
  | _ => rw [hphase] at hdeadline; cases hdeadline

/-- The invariant makes the watchdog sound. -/
lemma Inv.sound (hs : s.Inv) : s.Sound where
  answered := hs.answered
  passing ts hround hheard := poll_rounds hround (hs.below ts hround hheard)
  reported ts _ hround hdeadline hheard :=
    poll_timedOut hround hdeadline (hs.below ts hround hheard)
  timely := hs.timely
  disconnected := hs.disconnected

/-- A round that does not start above the last echo passes at the first look. -/
lemma poll_of_not_below (hphase : s.phase = .sent ts) (hle : ts ≤ s.pongTs) :
    (s.poll 2).rounds = s.rounds ++ [⟨ts, s.heard⟩] := by
  have henter : s.taskStep =
      some { s with phase := .looking ts (s.now + s.heartbeatTimeout) } := by
    rw [taskStep, hphase]
  have hanswered : taskStep { s with phase := .looking ts (s.now + s.heartbeatTimeout) } =
      some { s with phase := .idle, rounds := s.rounds ++ [⟨ts, s.heard⟩] } := if_pos hle
  rw [poll_succ_of_step 1 henter, poll_succ_of_step 0 hanswered]
  rfl

/-- A step from a sound state leads to a sound state exactly when it does not start a round at or below
the last echo. -/
lemma sound_iff_fresh (hs : s.Inv) (h : s.step a = some s') : s'.Sound ↔ s.Fresh a := by
  refine ⟨fun hsound ts hphase ha => ?_, fun hfresh => (hs.step hfresh h).sound⟩
  subst ha
  simp only [Watchdog.step, hphase] at h
  cases h
  refine UInt64.not_le.mp fun hle => ?_
  have hpass := poll_of_not_below (s := { s with phase := .sent ts, heard := false }) rfl hle
  rw [hsound.passing ts rfl rfl 2] at hpass
  simp at hpass

/-- Whatever the clock reads and the peer echoes, the watchdog is sound along a run exactly when every
Heartbeat is sent with a `ts` above the last echo. -/
theorem heartbeat_sound_iff (heartbeatTimeout : ℕ) (now : Instant) (as : List Action) :
    Exec.Always step Sound (new heartbeatTimeout now) as ↔
      Exec.Guarded step Fresh (new heartbeatTimeout now) as :=
  Exec.always_iff_guarded (I := Inv)
    (fun _ _ _ hs _ h => ⟨sound_iff_fresh hs h, fun hfresh => hs.step hfresh h⟩)
    (Inv.of_new heartbeatTimeout now) (Inv.of_new heartbeatTimeout now).sound

/-- The peer answers the first round, which was sent at `1000`; then the clock is set back, and the peer
falls silent. -/
def steppedBackRun : List Action :=
  [.tick 1000, .send true, .task, .response 1000 1020, .notify, .task, .tick 500, .send true, .task,
    .pass 60000, .task]

/-- The second round is judged answered although the peer has fallen silent, long after its deadline. -/
theorem silent_peer_passes :
    ∃ s, Exec.run step (new 10000 0) steppedBackRun = some s ∧ s.phase = .idle ∧
      s.rounds = [⟨1000, true⟩, ⟨500, false⟩] ∧ s.disconnect = false ∧
        ¬Exec.Always step Sound (new 10000 0) steppedBackRun := by
  obtain ⟨s, hrun, hs⟩ := Option.map_eq_some_iff.mp (show
    (Exec.run step (new 10000 0) steppedBackRun).map (fun s => (s.phase, s.rounds, s.disconnect)) =
      some (.idle, [⟨1000, true⟩, ⟨500, false⟩], false) by decide)
  simp only [Prod.mk.injEq] at hs
  obtain ⟨hphase, hrounds, hdisconnect⟩ := hs
  refine ⟨s, hrun, hphase, hrounds, hdisconnect, fun hal => ?_⟩
  have hheard := (hal.last hrun).answered ⟨500, false⟩ (by rw [hrounds]; simp)
  cases hheard

end Watchdog

end Heartbeat

end Rfrp
