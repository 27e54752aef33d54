import Mathlib.Data.UInt
import Rfrp.Common.Protocol
import Rfrp.Lib.Exec

/-!
# Counting the bytes of a stream

`CountingStream` of `crates/rfrp-common/src/util/counting.rs`: the bytes of a stream are added up locally
and written to shared counters from time to time, when they reach a threshold, when a clock that is read
at every 32nd operation says so, and when the stream is dropped.  Others add to the shared counters at any
time.

What is in a counter and what is pending for it always add up to the bytes that were transferred
(`counting_conserves`).  The counters are words of 64 bits that wrap around, and the equations are between
such words.
-/

namespace Rfrp

namespace Counting

/-! ## Constants -/

/-- `FLUSH_THRESHOLD`. -/
def flushThreshold : UInt64 := 256 * 1024

/-- `FLUSH_INTERVAL`. -/
def flushInterval : ℕ := fromSecs 1

/-- `TIME_CHECK_EVERY_OPS`. -/
def timeCheckEveryOps : UInt32 := 32

/-! ## Data -/

/-- The two directions of a stream. -/
inductive Dir where
  | read
  | write
  deriving DecidableEq

/-- A set of shared counters: `AtomicU64` for the bytes, `AtomicI64` for the connections. -/
structure Cells where
  read : UInt64
  write : UInt64
  active : Int64
  deriving DecidableEq

/-- A `CountingStream` with the counters it shares with others; `alive` until it is dropped. -/
structure State where
  main : Cells
  extra : Option Cells
  pendingRead : UInt64
  pendingWrite : UInt64
  lastFlush : Instant
  opsSinceTimeCheck : UInt32
  alive : Bool
  deriving DecidableEq

/-- What `poll_read` or `poll_write` of the inner stream returns: the number of bytes when it is ready. -/
inductive Polled where
  | pending
  | error
  | ready (n : UInt64)
  deriving DecidableEq

/-- What the clock reads when `maybe_flush` checks it, and when `flush` notes the time. -/
structure Clock where
  checked : Instant
  flushed : Instant
  deriving DecidableEq

namespace Cells

/-- The counter of a direction. -/
def bytes (c : Cells) : Dir → UInt64
  | .read => c.read
  | .write => c.write

/-- `fetch_add` on the counter of a direction. -/
def fetchAdd (c : Cells) (n : UInt64) : Dir → Cells
  | .read => { c with read := c.read + n }
  | .write => { c with write := c.write + n }

/-- What others add. -/
def addAll (c other : Cells) : Cells where
  read := c.read + other.read
  write := c.write + other.write
  active := c.active + other.active

/-- An addition counts in its own direction only. -/
@[simp] lemma bytes_fetchAdd (c : Cells) (n : UInt64) (d d' : Dir) :
    (c.fetchAdd n d).bytes d' = c.bytes d' + if d' = d then n else 0 := by
  cases d <;> cases d' <;> simp [fetchAdd, bytes]

/-- An addition of bytes leaves the number of active connections alone. -/
@[simp] lemma active_fetchAdd (c : Cells) (n : UInt64) (d : Dir) :
    (c.fetchAdd n d).active = c.active := by
  cases d <;> rfl

/-- The sums of two counters are taken direction by direction. -/
@[simp] lemma bytes_addAll (c other : Cells) (d : Dir) :
    (c.addAll other).bytes d = c.bytes d + other.bytes d := by
  cases d <;> rfl

/-- New counters are zero. -/
@[simp] lemma bytes_zero (d : Dir) : (⟨0, 0, 0⟩ : Cells).bytes d = 0 := by
  cases d <;> rfl

end Cells

/-! ## The stream -/

namespace State

/-- `CountingStream::new` and, with a second set of counters, `with_extra`. -/
def new (main : Cells) (extra : Option Cells) (now : Instant) : State where
  main := main
  extra := extra.map fun e => { e with active := e.active + 1 }
  pendingRead := 0
  pendingWrite := 0
  lastFlush := now
  opsSinceTimeCheck := 0
  alive := true

/-- What is pending in a direction. -/
def pending (s : State) : Dir → UInt64
  | .read => s.pendingRead
  | .write => s.pendingWrite

/-- Set what is pending in a direction. -/
def setPending (s : State) (n : UInt64) : Dir → State
  | .read => { s with pendingRead := n }
  | .write => { s with pendingWrite := n }

/-- One direction of `flush`. -/
def flushDir (s : State) (d : Dir) : State :=
  if s.pending d > 0 then
    { s with
      main := s.main.fetchAdd (s.pending d) d
      extra := s.extra.map fun e : Cells => e.fetchAdd (s.pending d) d }.setPending 0 d
  else
    s

/-- `flush`. -/
def flush (s : State) (now : Instant) : State :=
  { (s.flushDir .read).flushDir .write with
    lastFlush := now
    opsSinceTimeCheck := 0 }

/-- `u32::saturating_add`, by one. -/
def saturatingSucc (n : UInt32) : UInt32 := if n = 0xFFFFFFFF then n else n + 1

/-- `maybe_flush`. -/
def maybeFlush (s : State) (clock : Clock) : State :=
  if s.pendingRead = 0 ∧ s.pendingWrite = 0 then
    s
  else if s.pendingRead ≥ flushThreshold ∨ s.pendingWrite ≥ flushThreshold then
    s.flush clock.flushed
  else
    let ops := saturatingSucc s.opsSinceTimeCheck
    if ops ≥ timeCheckEveryOps then
      let s := { s with opsSinceTimeCheck := 0 }
      if clock.checked - s.lastFlush ≥ flushInterval then s.flush clock.flushed else s
    else
      { s with opsSinceTimeCheck := ops }

/-- `poll_read` and `poll_write`. -/
def poll (s : State) (d : Dir) (r : Polled) (clock : Clock) : State :=
  match r with
  | .ready n => (s.setPending (s.pending d + n) d).maybeFlush clock
  | .pending => s
  | .error => s

/-- `Drop`. -/
def drop (s : State) (now : Instant) : State :=
  let s := s.flush now
  { s with
    main := { s.main with active := s.main.active - 1 }
    extra := s.extra.map fun e => { e with active := e.active - 1 }
    alive := false }

/-- Others add to the counters, and to the second set of counters. -/
def addOthers (s : State) (main extra : Cells) : State :=
  { s with
    main := s.main.addAll main
    extra := s.extra.map fun e => e.addAll extra }

end State

/-! ## Runs -/

/-- What happens to a stream and to its counters. -/
inductive Op where
  | poll (d : Dir) (r : Polled) (clock : Clock)
  | others (main extra : Cells)
  | drop (now : Instant)

/-- One operation; after its drop nothing is read or written any more. -/
def step (s : State) : Op → Option State
  | .poll d r clock => if s.alive then some (s.poll d r clock) else none
  | .others main extra => some (s.addOthers main extra)
  | .drop now => if s.alive then some (s.drop now) else none

namespace Op

/-- The bytes that an operation transfers in a direction. -/
def transferred (d : Dir) : Op → ℕ
  | .poll d' (.ready n) _ => if d' = d then n.toNat else 0
  | _ => 0

/-- What others add to the counters. -/
def othersMain : Op → Cells
  | .others main _ => main
  | _ => ⟨0, 0, 0⟩

/-- What others add to the second set of counters. -/
def othersExtra : Op → Cells
  | .others _ extra => extra
  | _ => ⟨0, 0, 0⟩

/-- The operation is the drop of the stream. -/
def isDrop : Op → Bool
  | .drop _ => true
  | _ => false

end Op

/-- The bytes transferred in a direction. -/
def transferred (d : Dir) (ops : List Op) : ℕ := (ops.map (Op.transferred d)).sum

/-- The stream is dropped in the run. -/
def isDropped (ops : List Op) : Bool := ops.any Op.isDrop

/-- What others have added, all together. -/
def addedBy (f : Op → Cells) (ops : List Op) : Cells :=
  ops.foldr (fun op c => (f op).addAll c) ⟨0, 0, 0⟩

/-! ## One operation -/

namespace State

variable {s : State} {d d' : Dir}

/-- A pending count is set for its own direction only. -/
@[simp] lemma pending_setPending (n : UInt64) (d d' : Dir) :
    (s.setPending n d).pending d' = if d' = d then n else s.pending d' := by
  cases d <;> cases d' <;> simp [setPending, pending]

/-- A pending count is not counted in the main counters. -/
@[simp] lemma main_setPending (n : UInt64) (d : Dir) : (s.setPending n d).main = s.main := by
  cases d <;> rfl

/-- A pending count is not counted in the counters of the proxy. -/
@[simp] lemma extra_setPending (n : UInt64) (d : Dir) : (s.setPending n d).extra = s.extra := by
  cases d <;> rfl

/-- A pending count has nothing to do with the life of the stream. -/
@[simp] lemma alive_setPending (n : UInt64) (d : Dir) : (s.setPending n d).alive = s.alive := by
  cases d <;> rfl

/-- How much more the second counter of a direction holds than the first one. -/
def lead (s : State) (d : Dir) : Option UInt64 := s.extra.map fun e => e.bytes d - s.main.bytes d

/-- What is counted or pending in a direction. -/
def total (s : State) (d : Dir) : UInt64 := s.main.bytes d + s.pending d

/-- The connection counters. -/
def actives (s : State) : Int64 × Option Int64 := (s.main.active, s.extra.map Cells.active)

/-- Bytes move from what is pending to the counters, and to both sets alike. -/
structure Moved (s s' : State) : Prop where
  total : ∀ d, s'.total d = s.total d
  lead : ∀ d, s'.lead d = s.lead d
  actives : s'.actives = s.actives
  alive : s'.alive = s.alive

/-- Nothing is moved. -/
lemma Moved.refl (s : State) : Moved s s := ⟨fun _ => rfl, fun _ => rfl, rfl, rfl⟩

/-- Bytes that are moved twice are moved. -/
lemma Moved.trans {s' s'' : State} (h : Moved s s') (h' : Moved s' s'') : Moved s s'' where
  total d := (h'.total d).trans (h.total d)
  lead d := (h'.lead d).trans (h.lead d)
  actives := h'.actives.trans h.actives
  alive := h'.alive.trans h.alive

/-- A flush of one direction only moves its pending bytes to the counters. -/
lemma moved_flushDir (s : State) (d : Dir) : Moved s (s.flushDir d) := by
  unfold flushDir
  split
  · refine ⟨fun d' => ?_, fun d' => ?_, ?_, ?_⟩
    · unfold total
      rw [main_setPending, pending_setPending, Cells.bytes_fetchAdd]
      by_cases hd : d' = d
      · rw [if_pos hd, if_pos hd, hd, UInt64.add_zero]
      · rw [if_neg hd, if_neg hd, UInt64.add_zero]
        rfl
    · unfold lead
      rw [main_setPending, extra_setPending, Option.map_map]
      refine congrArg (fun f => s.extra.map f) (funext fun e => ?_)
      dsimp only [Function.comp_apply]
      rw [Cells.bytes_fetchAdd, Cells.bytes_fetchAdd]
      grind
    · unfold actives
      rw [main_setPending, extra_setPending, Option.map_map, Cells.active_fetchAdd]
      refine congrArg (fun f => (s.main.active, s.extra.map f)) (funext fun e => ?_)
      exact Cells.active_fetchAdd ..
    · exact alive_setPending ..
  · exact .refl s

/-- A flush of one direction leaves nothing pending in it. -/
lemma pending_flushDir (s : State) (d d' : Dir) :
    (s.flushDir d).pending d' = if d' = d then 0 else s.pending d' := by
  unfold flushDir
  split
  · rw [pending_setPending]
    rfl
  · next hzero =>
    have hpending : s.pending d = 0 := by
      rw [gt_iff_lt, UInt64.not_lt] at hzero
      exact UInt64.le_zero_iff.mp hzero
    split
    · next hd => rw [hd, hpending]
    · rfl

/-- A flush only moves pending bytes to the counters. -/
lemma moved_flush (s : State) (now : Instant) : Moved s (s.flush now) := by
  have hdirs := (moved_flushDir s .read).trans (moved_flushDir (s.flushDir .read) .write)
  exact ⟨hdirs.total, hdirs.lead, hdirs.actives, hdirs.alive⟩

/-- A flush leaves nothing pending. -/
lemma pending_flush (s : State) (now : Instant) (d : Dir) : (s.flush now).pending d = 0 := by
  have hflush : (s.flush now).pending d = ((s.flushDir .read).flushDir .write).pending d := by
    cases d <;> rfl
  rw [hflush, pending_flushDir, pending_flushDir]
  cases d <;> rfl

/-- A flush that waits for its threshold only moves pending bytes, if it flushes at all. -/
lemma moved_maybeFlush (s : State) (clock : Clock) : Moved s (s.maybeFlush clock) := by
  unfold maybeFlush
  split
  · exact .refl s
  split
  · exact moved_flush s clock.flushed
  dsimp only
  split
  · have hops : Moved s { s with opsSinceTimeCheck := 0 } := ⟨fun _ => rfl, fun _ => rfl, rfl, rfl⟩
    split
    · exact hops.trans (moved_flush _ clock.flushed)
    · exact hops
  · exact ⟨fun _ => rfl, fun _ => rfl, rfl, rfl⟩

/-- After `maybe_flush` what is pending is below the threshold. -/
lemma pending_maybeFlush (s : State) (clock : Clock) (d : Dir) :
    (s.maybeFlush clock).pending d < flushThreshold := by
  have hzero : (0 : UInt64) < flushThreshold := by decide
  unfold maybeFlush
  split
  · next hnone =>
    have hpending : s.pending d = 0 := by
      cases d with
      | read => exact hnone.1
      | write => exact hnone.2
    rw [hpending]
    exact hzero
  split
  · rw [pending_flush]
    exact hzero
  · next hbelow =>
    rw [not_or, UInt64.not_le, UInt64.not_le] at hbelow
    have hpending : s.pending d < flushThreshold := by
      cases d with
      | read => exact hbelow.1
      | write => exact hbelow.2
    dsimp only
    split
    · split
      · rw [pending_flush]
        exact hzero
      · exact hpending
    · exact hpending

end State

/-- What an operation does to the counters and to what is pending. -/
structure OpSpec (s s' : State) (op : Op) : Prop where
  total : ∀ d, s'.total d = s.total d + op.othersMain.bytes d + UInt64.ofNat (op.transferred d)
  lead : ∀ d, s'.lead d =
    (s.lead d).map fun n => n + (op.othersExtra.bytes d - op.othersMain.bytes d)
  main : s'.main.active =
    s.main.active + op.othersMain.active - if s.alive = true ∧ s'.alive = false then 1 else 0
  extra : s'.extra.map Cells.active = s.extra.map fun e =>
    e.active + op.othersExtra.active - if s.alive = true ∧ s'.alive = false then 1 else 0
  below : (∀ d, s.pending d < flushThreshold) → ∀ d, s'.pending d < flushThreshold
  alive : s'.alive = true → s.alive = true
  dropped : (s.alive = false → ∀ d, s.pending d = 0) → s'.alive = false → ∀ d, s'.pending d = 0

/-- An operation on the stream that transfers `n` bytes in a direction: they become pending, and what is
pending may be moved. -/
lemma opSpec_of_moved {s s₁ s' : State} {op : Op} (hmoved : s₁.Moved s') (halive : s.alive = true)
    (halive₁ : s₁.alive = true) (hmain : s₁.main = s.main) (hextra : s₁.extra = s.extra)
    (hpending : ∀ d, s₁.pending d = s.pending d + UInt64.ofNat (op.transferred d))
    (hothers : op.othersMain = ⟨0, 0, 0⟩ ∧ op.othersExtra = ⟨0, 0, 0⟩)
    (hbelow : (∀ d, s.pending d < flushThreshold) → ∀ d, s'.pending d < flushThreshold) :
    OpSpec s s' op := by
  have halive' : s'.alive = true := hmoved.alive.trans halive₁
  have hnot : ¬(s.alive = true ∧ s'.alive = false) := fun h => by
    rw [halive'] at h
    cases h.2
  have hactives : s'.actives = s.actives := by
    rw [hmoved.actives]
    unfold State.actives
    rw [hmain, hextra]
  refine ⟨fun d => ?_, fun d => ?_, ?_, ?_, hbelow, fun _ => halive, fun _ hdead => ?_⟩
  · rw [hmoved.total, hothers.1, Cells.bytes_zero, UInt64.add_zero]
    unfold State.total
    rw [hmain, hpending, UInt64.add_assoc]
  · rw [hmoved.lead, hothers.1, hothers.2, Cells.bytes_zero]
    unfold State.lead
    rw [hmain, hextra, Option.map_map]
    refine congrArg (fun f => s.extra.map f) (funext fun e => ?_)
    simp
  · rw [if_neg hnot, hothers.1]
    have hactive : s'.main.active = s.main.active := congrArg Prod.fst hactives
    simp [hactive]
  · rw [if_neg hnot, hothers.2]
    have hactive : s'.extra.map Cells.active = s.extra.map Cells.active := congrArg Prod.snd hactives
    simp [hactive]
  · rw [halive'] at hdead
    cases hdead

/-- What every operation does. -/
lemma step_spec {s s' : State} {op : Op} (h : step s op = some s') : OpSpec s s' op := by
  cases op with
  | poll d r clock =>
    have halive : s.alive = true := by
      by_contra hdead
      rw [step, if_neg hdead] at h
      cases h
    rw [step, if_pos halive] at h
    cases h
    -- a poll that brings nothing leaves the counters and what is pending alone
    have hnothing : ∀ r', r' = Polled.pending ∨ r' = .error →
        OpSpec s s (.poll d r' clock) := by
      intro r' hr'
      refine opSpec_of_moved (.refl s) halive halive rfl rfl (fun d' => ?_) ⟨rfl, rfl⟩ id
      rcases hr' with rfl | rfl <;> simp [Op.transferred]
    cases r with
    | pending => exact hnothing _ (.inl rfl)
    | error => exact hnothing _ (.inr rfl)
    | ready n =>
      refine opSpec_of_moved (State.moved_maybeFlush _ clock) halive ?_ ?_ ?_ (fun d' => ?_) ⟨rfl, rfl⟩
        fun _ => State.pending_maybeFlush _ clock
      · rw [State.alive_setPending, halive]
      · exact State.main_setPending ..
      · exact State.extra_setPending ..
      · rw [State.pending_setPending, Op.transferred]
        by_cases hd : d' = d
        · rw [if_pos hd, if_pos hd.symm, hd, UInt64.ofNat_toNat]
        · rw [if_neg hd, if_neg (Ne.symm hd)]
          simp
  | others main extra =>
    cases h
    have hnot : ¬(s.alive = true ∧ (s.addOthers main extra).alive = false) := by
      rintro ⟨halive, hdead⟩
      have halive' : (s.addOthers main extra).alive = true := halive
      rw [hdead] at halive'
      cases halive'
    have hpending : ∀ d, (s.addOthers main extra).pending d = s.pending d := fun d => by
      cases d <;> rfl
    refine ⟨fun d => ?_, fun d => ?_, ?_, ?_, fun h d => ?_, id, fun h hdead d => ?_⟩
    · have hmain : (s.addOthers main extra).main.bytes d = s.main.bytes d + main.bytes d :=
        Cells.bytes_addAll ..
      have hnone : UInt64.ofNat ((Op.others main extra).transferred d) = 0 := rfl
      unfold State.total
      rw [hmain, hpending, hnone]
      simp only [Op.othersMain]
      grind
    · unfold State.lead State.addOthers
      rw [Option.map_map, Option.map_map]
      refine congrArg (fun f => s.extra.map f) (funext fun e => ?_)
      dsimp only [Function.comp_apply]
      rw [Cells.bytes_addAll, Cells.bytes_addAll]
      simp only [Op.othersMain, Op.othersExtra]
      grind
    · rw [if_neg hnot]
      simp [State.addOthers, Cells.addAll, Op.othersMain]
    · rw [if_neg hnot]
      simp [State.addOthers, Cells.addAll, Op.othersExtra, Function.comp_def]
    · rw [hpending]
      exact h d
    · rw [hpending]
      exact h hdead d
  | drop now =>
    have halive : s.alive = true := by
      by_contra hdead
      rw [step, if_neg hdead] at h
      cases h
    rw [step, if_pos halive] at h
    cases h
    -- the flush moves what is pending to the counters; then the stream counts itself out
    have hmoved := State.moved_flush s now
    have hdropped : s.alive = true ∧ (s.drop now).alive = false := ⟨halive, rfl⟩
    have hpending : ∀ d, (s.drop now).pending d = 0 := fun d => by
      have hflush := State.pending_flush s now d
      cases d <;> exact hflush
    have hbytes : ∀ d, (s.drop now).main.bytes d = (s.flush now).main.bytes d := fun d => by
      cases d <;> rfl
    have hactive : (s.flush now).main.active = s.main.active := congrArg Prod.fst hmoved.actives
    have hactives : (s.flush now).extra.map Cells.active = s.extra.map Cells.active :=
      congrArg Prod.snd hmoved.actives
    refine ⟨fun d => ?_, fun d => ?_, ?_, ?_, fun _ d => ?_, fun _ => halive, fun _ _ => hpending⟩
    · have htotal : (s.drop now).total d = (s.flush now).total d := by
        unfold State.total
        rw [hbytes, hpending, State.pending_flush]
      rw [htotal, hmoved.total]
      have hnone : UInt64.ofNat ((Op.drop now).transferred d) = 0 := rfl
      rw [hnone]
      simp [Op.othersMain]
    · have hlead : (s.drop now).lead d = (s.flush now).lead d := by
        unfold State.lead
        rw [hbytes]
        simp only [State.drop, Option.map_map]
        refine congrArg (fun f => (s.flush now).extra.map f) (funext fun e => ?_)
        cases d <;> rfl
      rw [hlead, hmoved.lead]
      simp [Op.othersMain, Op.othersExtra]
    · rw [if_pos hdropped]
      show (s.flush now).main.active - 1 = _
      rw [hactive]
      simp [Op.othersMain]
    · rw [if_pos hdropped]
      have hextra : (s.drop now).extra.map Cells.active =
          ((s.flush now).extra.map Cells.active).map fun n => n - 1 := by
        simp only [State.drop, Option.map_map]
        rfl
      rw [hextra, hactives, Option.map_map]
      simp [Op.othersExtra, Function.comp_def]
    · rw [hpending]
      decide

/-! ## A run -/

/-- What a run of operations does to the counters and to what is pending. -/
structure RunSpec (s w : State) (ops : List Op) : Prop where
  total : ∀ d, w.total d =
    s.total d + (addedBy Op.othersMain ops).bytes d + UInt64.ofNat (transferred d ops)
  lead : ∀ d, w.lead d = (s.lead d).map fun n =>
    n + ((addedBy Op.othersExtra ops).bytes d - (addedBy Op.othersMain ops).bytes d)
  main : w.main.active = s.main.active + (addedBy Op.othersMain ops).active -
    if s.alive = true ∧ w.alive = false then 1 else 0
  extra : w.extra.map Cells.active = s.extra.map fun e =>
    e.active + (addedBy Op.othersExtra ops).active -
      if s.alive = true ∧ w.alive = false then 1 else 0
  below : (∀ d, s.pending d < flushThreshold) → ∀ d, w.pending d < flushThreshold
  alive : w.alive = true → s.alive = true
  dropped : (s.alive = false → ∀ d, s.pending d = 0) → w.alive = false → ∀ d, w.pending d = 0

/-- A run without operations counts nothing. -/
lemma runSpec_nil (s : State) : RunSpec s s [] := by
  have hnot : ¬(s.alive = true ∧ s.alive = false) := by
    rintro ⟨halive, hdead⟩
    rw [halive] at hdead
    cases hdead
  refine ⟨fun d => ?_, fun d => ?_, ?_, ?_, id, id, id⟩
  · have hnone : UInt64.ofNat (transferred d []) = 0 := rfl
    rw [hnone]
    simp [addedBy]
  · simp [addedBy]
  · rw [if_neg hnot]
    simp [addedBy]
  · rw [if_neg hnot]
    simp [addedBy]

/-- Of a first operation and the rest of a run at most one drops the stream. -/
lemma dropped_add {s s' w : State} (halive : s'.alive = true → s.alive = true)
    (halive' : w.alive = true → s'.alive = true) :
    ((if s.alive = true ∧ s'.alive = false then 1 else 0) +
      if s'.alive = true ∧ w.alive = false then 1 else 0 : Int64) =
    if s.alive = true ∧ w.alive = false then 1 else 0 := by
  cases hs' : s'.alive with
  | true =>
    rw [halive hs']
    simp
  | false =>
    have hw : w.alive = false := by
      rw [Bool.eq_false_iff]
      intro hw
      rw [halive' hw] at hs'
      cases hs'
    rw [hw]
    simp

/-- The first operation of a run adds its own bytes to those of the rest. -/
lemma runSpec_cons {s s' w : State} {op : Op} {ops : List Op} (h : OpSpec s s' op)
    (hrest : RunSpec s' w ops) : RunSpec s w (op :: ops) := by
  have hdropped := dropped_add h.alive hrest.alive
  have hcons : ∀ f, addedBy f (op :: ops) = (f op).addAll (addedBy f ops) := fun f => rfl
  refine ⟨fun d => ?_, fun d => ?_, ?_, ?_, fun hbelow => hrest.below (h.below hbelow),
    fun halive => h.alive (hrest.alive halive), fun hpending => hrest.dropped (h.dropped hpending)⟩
  · have htransferred : UInt64.ofNat (transferred d (op :: ops)) =
        UInt64.ofNat (op.transferred d) + UInt64.ofNat (transferred d ops) := by
      rw [← UInt64.ofNat_add]
      rfl
    rw [hrest.total, h.total, hcons, htransferred, Cells.bytes_addAll]
    grind
  · rw [hrest.lead, h.lead, hcons, hcons, Cells.bytes_addAll, Cells.bytes_addAll, Option.map_map]
    refine congrArg (fun f => (s.lead d).map f) (funext fun n => ?_)
    dsimp only [Function.comp_apply]
    grind
  · rw [hrest.main, h.main, hcons, ← hdropped]
    simp only [Cells.addAll]
    grind
  · have hextra : w.extra.map Cells.active = (s'.extra.map Cells.active).map fun n =>
        n + (addedBy Op.othersExtra ops).active -
          if s'.alive = true ∧ w.alive = false then 1 else 0 := by
      rw [hrest.extra, Option.map_map]
      rfl
    rw [hextra, h.extra, Option.map_map, hcons, ← hdropped]
    refine congrArg (fun f => s.extra.map f) (funext fun e => ?_)
    simp only [Function.comp_apply, Cells.addAll]
    grind

/-- Every run counts what its operations have passed on. -/
lemma runSpec_of_run {s w : State} {ops : List Op} (hrun : Exec.run step s ops = some w) :
    RunSpec s w ops := by
  induction ops generalizing s with
  | nil =>
    cases hrun
    exact runSpec_nil _
  | cons op ops ih =>
    obtain ⟨s', hstep, hrest⟩ := Exec.run_cons_eq_some.mp hrun
    exact runSpec_cons (step_spec hstep) (ih hrest)

/-- An operation needs the stream, and only its drop takes it away. -/
lemma alive_step {s s' : State} {op : Op} (h : step s op = some s') :
    s'.alive = (s.alive && !op.isDrop) := by
  cases op with
  | poll d r clock =>
    unfold step at h
    dsimp only at h
    split at h
    · next halive =>
      cases h
      rw [halive]
      cases r with
      | ready n => exact ((State.moved_maybeFlush _ clock).alive.trans (State.alive_setPending ..)).trans halive
      | pending => exact halive
      | error => exact halive
    · cases h
  | others main extra =>
    cases h
    exact (Bool.and_true _).symm
  | drop now =>
    unfold step at h
    dsimp only at h
    split at h
    · cases h
      exact (Bool.and_false _).symm
    · cases h

/-- A run leaves the stream unless it drops it. -/
lemma alive_run {s w : State} {ops : List Op} (hrun : Exec.run step s ops = some w) :
    w.alive = (s.alive && !isDropped ops) := by
  induction ops generalizing s with
  | nil =>
    cases hrun
    exact (Bool.and_true _).symm
  | cons op ops ih =>
    obtain ⟨s', hstep, hrest⟩ := Exec.run_cons_eq_some.mp hrun
    rw [ih hrest, alive_step hstep, isDropped, isDropped, List.any_cons, Bool.not_or, Bool.and_assoc]

/-- After any operations on a new stream, and whatever others add to the same counters meanwhile: both
counters of a direction hold what they held, what others added and what was transferred in this direction,
except for what is pending, and what is pending is below the threshold.  Once the stream was dropped
nothing is pending, so that the counters hold all of it; and the drop, after which nothing is read or
written, takes one connection off, in both sets of counters. -/
theorem counting_conserves {main : Cells} {extra : Option Cells} {now : Instant} {ops : List Op}
    {w : State} (hrun : Exec.run step (.new main extra now) ops = some w) :
    (∀ d, w.main.bytes d + w.pending d =
      main.bytes d + (addedBy Op.othersMain ops).bytes d + UInt64.ofNat (transferred d ops)) ∧
    (∀ d, (w.extra.map fun e => e.bytes d + w.pending d) = extra.map fun e =>
      e.bytes d + (addedBy Op.othersExtra ops).bytes d + UInt64.ofNat (transferred d ops)) ∧
    (∀ d, w.pending d < flushThreshold) ∧
    (isDropped ops = true → ∀ d, w.pending d = 0 ∧
      w.main.bytes d =
        main.bytes d + (addedBy Op.othersMain ops).bytes d + UInt64.ofNat (transferred d ops) ∧
      (w.extra.map fun e => e.bytes d) = extra.map fun e =>
        e.bytes d + (addedBy Op.othersExtra ops).bytes d + UInt64.ofNat (transferred d ops)) ∧
    w.alive = !isDropped ops ∧
    w.main.active =
      main.active + (addedBy Op.othersMain ops).active - (if isDropped ops then 1 else 0) ∧
    w.extra.map Cells.active = extra.map fun e =>
      e.active + 1 + (addedBy Op.othersExtra ops).active - if isDropped ops then 1 else 0 := by
  have hspec := runSpec_of_run hrun
  have halive : w.alive = !isDropped ops := by
    have hnew : (State.new main extra now).alive = true := rfl
    rw [alive_run hrun, hnew, Bool.true_and]
  have hdropped : (if (State.new main extra now).alive = true ∧ w.alive = false then 1 else 0 : Int64) =
      if isDropped ops then 1 else 0 := by
    have hnew : (State.new main extra now).alive = true := rfl
    rw [hnew, halive]
    cases isDropped ops <;> simp
  have hpending : ∀ d, (State.new main extra now).pending d = 0 := fun d => by
    cases d <;> rfl
  have htotal : ∀ d, w.main.bytes d + w.pending d =
      main.bytes d + (addedBy Op.othersMain ops).bytes d + UInt64.ofNat (transferred d ops) := by
    intro d
    have hnew : (State.new main extra now).total d = main.bytes d := by
      unfold State.total
      rw [hpending, UInt64.add_zero]
      rfl
    rw [← hnew]
    exact hspec.total d
  have hextras : ∀ d, (w.extra.map fun e => e.bytes d + w.pending d) = extra.map fun e =>
      e.bytes d + (addedBy Op.othersExtra ops).bytes d + UInt64.ofNat (transferred d ops) := by
    intro d
    have hextra : (w.extra.map fun e => e.bytes d + w.pending d) =
        (w.lead d).map fun n => n + (w.main.bytes d + w.pending d) := by
      unfold State.lead
      rw [Option.map_map]
      refine congrArg (fun f => w.extra.map f) (funext fun e => ?_)
      dsimp only [Function.comp_apply]
      grind
    have hlead : (State.new main extra now).lead d =
        extra.map fun e => e.bytes d - main.bytes d := by
      unfold State.lead State.new
      rw [Option.map_map]
      refine congrArg (fun f => extra.map f) (funext fun e => ?_)
      cases d <;> rfl
    rw [hextra, hspec.lead, htotal, hlead, Option.map_map, Option.map_map]
    refine congrArg (fun f => extra.map f) (funext fun e => ?_)
    dsimp only [Function.comp_apply]
    grind
  refine ⟨htotal, hextras, hspec.below fun d => ?_, fun hdrop d => ?_, halive, ?_, ?_⟩
  · rw [hpending]
    decide
  · have hnone : w.pending d = 0 := by
      refine hspec.dropped (fun _ => hpending) ?_ d
      rw [halive, hdrop, Bool.not_true]
    have hmain := htotal d
    have hextra := hextras d
    simp only [hnone, UInt64.add_zero] at hmain hextra
    exact ⟨hnone, hmain, hextra⟩
  · rw [hspec.main, hdropped]
    rfl
  · rw [hspec.extra, hdropped]
    unfold State.new
    rw [Option.map_map]
    rfl

/-- A stream that reads a little, writes more than the threshold, reads again and is dropped, while others
count on the same counters. -/
def threeTransfers : List Op :=
  [.poll .read (.ready 1000) ⟨2, 3⟩, .others ⟨5, 6, 1⟩ ⟨0, 7, 0⟩, .poll .write (.ready 300000) ⟨4, 5⟩,
    .poll .write .error ⟨6, 7⟩, .poll .read (.ready 24) ⟨8, 9⟩, .drop 10]

/-- After its drop the counters hold all bytes of both directions, and one connection less than with
it. -/
theorem threeTransfers_conserve :
    ∃ w, Exec.run step (.new ⟨0, 0, 3⟩ (some ⟨0, 0, 0⟩) 1) threeTransfers = some w ∧
      (∀ d, w.main.bytes d = (⟨0, 0, 3⟩ : Cells).bytes d +
        (addedBy Op.othersMain threeTransfers).bytes d + UInt64.ofNat (transferred d threeTransfers)) ∧
      w.alive = false ∧ w.main.active = 3 ∧ w.extra.map Cells.active = some 0 := by
  have hrun : Exec.run step (.new ⟨0, 0, 3⟩ (some ⟨0, 0, 0⟩) 1) threeTransfers =
      some ⟨⟨1029, 300006, 3⟩, some ⟨1024, 300007, 0⟩, 0, 0, 10, 0, false⟩ := by
    decide
  obtain ⟨-, -, -, hdropped, halive, hmain, hextra⟩ := counting_conserves hrun
  exact ⟨_, hrun, fun d => (hdropped rfl d).2.1, halive, hmain, hextra⟩

end Counting

end Rfrp
