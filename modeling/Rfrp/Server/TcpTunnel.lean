import Rfrp.Common.Bridge
import Rfrp.Common.FirstFrame
import Rfrp.Lib.Exec
import Rfrp.Lib.FramedStream
import Rfrp.Server.HandOver

/-!
# A user connection through the tunnel

The bytes of a user pass three connections and two bridges on their way to the local service, and
those of the service pass the same way back: user and server (`dispatch_user_connection`), server
and client (the work connection), client and local service (`handle_work_conn`).  On the work
connection the client first sends a `StartWorkConn` frame, which the server takes off with
`read_one_frame`; a connection in the pool is probed before it is used, and the head of a vhost
request is read before the user is dispatched.

`tcp_tunnel_transparent` states that none of this shows at the two ends: each of them receives what
the other one has sent.  Whether the server accepts the frame at all is not decided here.
-/

namespace Rfrp

namespace TcpTunnel

/-! ## The two directions -/

/-- One direction: three hops with a pump of a bridge between them. -/
structure Line where
  first : Hop
  one : Pump
  second : Hop
  two : Pump
  third : Hop
  deriving DecidableEq

/-- A hop of a direction. -/
inductive Place where
  | first
  | second
  | third
  deriving DecidableEq

namespace Line

/-- A direction in which nothing was sent, but for what is on its first hop. -/
def new (first : Hop) : Line := ⟨first, .new, .idle, .new, .idle⟩

/-- One step of the network. -/
def net (l : Line) (a : HopAction) : Place → Option Line
  | .first => (l.first.net a).map fun first => { l with first }
  | .second => (l.second.net a).map fun second => { l with second }
  | .third => (l.third.net a).map fun third => { l with third }

/-- One step of the bridge between the first two hops. -/
def pumpOne (l : Line) (a : PumpAction) : Option Line :=
  (l.one.step l.first l.second a).map fun (first, one, second) => { l with first, one, second }

/-- One step of the bridge between the last two hops. -/
def pumpTwo (l : Line) (a : PumpAction) : Option Line :=
  (l.two.step l.second l.third a).map fun (second, two, third) => { l with second, two, third }

/-- The end that sends writes. -/
def write (l : Line) (bs : List UInt8) : Option Line :=
  if l.first.finished = false then some { l with first := l.first.write bs } else none

/-- The end that sends shuts down. -/
def finish (l : Line) : Line := { l with first := l.first.shutdown }

/-- The end that receives reads. -/
def read (l : Line) (n : ℕ) : Option Line :=
  if 0 < n then some { l with third := (l.third.read n).2 } else none

/-- The bytes that were sent and not received; `left` is what the client still writes before them.
-/
def onTheWay (l : Line) (left : List UInt8) : List UInt8 :=
  l.third.onTheWay ++ (l.two.buf ++ (l.second.onTheWay ++ (left ++ (l.one.buf ++ l.first.onTheWay))))

end Line

/-! ## The tunnel -/

/-- The server's end of the work connection: it reads the first frame, holds the connection in the
pool or for its user, and bridges it. -/
inductive ServerPc where
  | reading
  | held
  | bridging
  | ended
  deriving DecidableEq

/-- The client's end: it writes the first frame, of which some bytes are left, and bridges. -/
inductive ClientPc where
  | greeting (left : List UInt8)
  | bridging
  | ended (left : List UInt8)
  deriving DecidableEq

/-- The bytes of the first frame that were not written. -/
def ClientPc.left : ClientPc → List UInt8
  | greeting left => left
  | bridging => []
  | ended left => left

/-- A user connection and its work connection.  `accepted` and `failed` are history: the frame that
the server has read, and whether a connection was reset or an end of the tunnel was given up. -/
structure Tunnel where
  up : Line
  down : Line
  server : ServerPc
  client : ClientPc
  accepted : Option Frame
  failed : Bool
  deriving DecidableEq

/-- The way to the local service, or back to the user. -/
inductive Direction where
  | up
  | down
  deriving DecidableEq

/-- What happens in the tunnel.  The two ends, the network and the scheduler decide. -/
inductive Action where
  | send (d : Direction) (bs : List UInt8)
  | finish (d : Direction)
  | receive (d : Direction) (n : ℕ)
  | net (d : Direction) (place : Place) (a : HopAction)
  /-- `framed.send` of the client writes a part of the first frame. -/
  | greet (n : ℕ)
  /-- The client starts its bridge. -/
  | start
  /-- `read_one_frame` of the server has the first frame. -/
  | accept
  /-- `probe_alive` -/
  | probe
  /-- The server starts its bridge. -/
  | attach
  | serverPump (d : Direction) (a : PumpAction)
  | clientPump (d : Direction) (a : PumpAction)
  /-- The server drops both connections: an error, a dead connection, an expired user. -/
  | serverFail
  | clientFail
  deriving DecidableEq

namespace Tunnel

/-- A tunnel before the first frame.  The user's bytes that have arrived were looked into. -/
def new (parse : List UInt8 → HandOver.HeadParse) (looks : List HandOver.Look)
    (chunks : List (List UInt8)) (frame : Frame) : Option Tunnel :=
  (HandOver.handOver parse looks (.raw chunks .stalls)).map fun stream =>
    { up := .new ⟨chunks.flatten, false, [], stream, []⟩
      down := .new .idle
      server := .reading
      client := .greeting (FrameCodec.frameBytes frame)
      accepted := none
      failed := false }

/-- A direction, and the tunnel with another one in its place. -/
def line (t : Tunnel) : Direction → Line
  | .up => t.up
  | .down => t.down

@[inherit_doc line]
def setLine (t : Tunnel) (l : Line) : Direction → Tunnel
  | .up => { t with up := l }
  | .down => { t with down := l }

/-- The server has read the first frame off the work connection. -/
def acceptStep (t : Tunnel) : Option Tunnel :=
  match t.down.second.stream with
  | .raw chunks ending =>
    match FrameCodec.readOneFrame (chunks.filter fun c => !c.isEmpty) with
    | .ok (frame, rest) =>
      some { t with
        down.second.stream := .raw rest ending
        down.second.got := t.down.second.got ++ FrameCodec.frameBytes frame
        server := .held
        accepted := some frame }
    | .error _ => none
  | .prepended _ _ => none

/-- One step of the tunnel. -/
def step (t : Tunnel) : Action → Option Tunnel
  | .send d bs => ((t.line d).write bs).map fun l => t.setLine l d
  | .finish d => some (t.setLine (t.line d).finish d)
  | .receive d n => ((t.line d).read n).map fun l => t.setLine l d
  | .net d place a =>
    ((t.line d).net a place).map fun l =>
      { t.setLine l d with failed := t.failed || a.isReset }
  | .greet n =>
    match t.client with
    | .greeting left =>
      if t.down.second.finished = false then
        some { t with
          down.second := t.down.second.write (left.take n)
          client := .greeting (left.drop n) }
      else none
    | _ => none
  | .start => if t.client = .greeting [] then some { t with client := .bridging } else none
  | .accept => if t.server = .reading then t.acceptStep else none
  | .probe =>
    if t.server = .held then
      (HandOver.probeAlive t.down.second.stream).map fun stream =>
        { t with down.second.stream := stream }
    else none
  | .attach => if t.server = .held then some { t with server := .bridging } else none
  | .serverPump d a =>
    if t.server = .bridging then
      match d with
      | .up => (t.up.pumpOne a).map fun up => { t with up }
      | .down => (t.down.pumpTwo a).map fun down => { t with down }
    else none
  | .clientPump d a =>
    if t.client = .bridging then
      match d with
      | .up => (t.up.pumpTwo a).map fun up => { t with up }
      | .down => (t.down.pumpOne a).map fun down => { t with down }
    else none
  | .serverFail =>
    some { t with
      up.second := t.up.second.shutdown
      down.third := t.down.third.shutdown
      server := .ended
      failed := true }
  | .clientFail =>
    some { t with
      up.third := t.up.third.shutdown
      down.second := t.down.second.shutdown
      client := .ended t.client.left
      failed := true }

end Tunnel

/-! ## What a direction keeps -/

variable {l l' : Line} {put left taken : List UInt8}

namespace Line

/-- The bytes that pass a direction.  The client puts some bytes in front of those of the first hop,
of which some are left, and the server takes some off again. -/
structure Carries (l : Line) (put left taken : List UInt8) : Prop where
  first : l.first.Sound
  second : l.second.Sound
  third : l.third.Sound
  one : put ++ l.first.got = l.second.sent ++ (left ++ l.one.buf)
  two : l.second.got = taken ++ (l.third.sent ++ l.two.buf)
  oneRoom : l.one.buf.length ≤ bridgeBufSize
  twoRoom : l.two.buf.length ≤ bridgeBufSize

/-- Nothing was reset, and the ends pass in order. -/
structure InOrder (l : Line) : Prop where
  first : l.first.stream.ending ≠ .reset
  second : l.second.stream.ending ≠ .reset
  third : l.third.stream.ending ≠ .reset
  one : l.one.Ends l.first l.second
  two : l.two.Ends l.second l.third

/-- The pump at the client passes the bytes on, once the frame is written. -/
lemma Carries.pumpOne (h : l.Carries put [] taken) {a : PumpAction} (hstep : l.pumpOne a = some l') :
    l'.Carries put [] taken := by
  obtain ⟨⟨i, p, o⟩, hpump, rfl⟩ := Option.map_eq_some_iff.mp hstep
  obtain ⟨⟨bs, hi, ho⟩, hroom, hinput, houtput, -, -, hgot, -⟩ := Pump.moved_of_step hpump
  refine ⟨hinput h.first, houtput h.second, h.third, ?_, ?_, hroom h.oneRoom, h.twoRoom⟩
  · have hone := h.one
    rw [List.nil_append] at hone
    dsimp only
    rw [hi, List.nil_append, ho, ← hone, List.append_assoc]
  · exact hgot.trans h.two

/-- The pump at the server passes the bytes on. -/
lemma Carries.pumpTwo (h : l.Carries put left taken) {a : PumpAction} (hstep : l.pumpTwo a = some l') :
    l'.Carries put left taken := by
  obtain ⟨⟨i, p, o⟩, hpump, rfl⟩ := Option.map_eq_some_iff.mp hstep
  obtain ⟨⟨bs, hi, ho⟩, hroom, hinput, houtput, -, hsent, -, -⟩ := Pump.moved_of_step hpump
  refine ⟨h.first, hinput h.second, houtput h.third, ?_, ?_, h.oneRoom, hroom h.twoRoom⟩
  · dsimp only
    rw [hsent.1]
    exact h.one
  · dsimp only
    rw [hi, ho, h.two, List.append_assoc]

/-- The pump at the client passes the end on after the bytes. -/
lemma InOrder.pumpOne (h : l.InOrder) {a : PumpAction} (hstep : l.pumpOne a = some l') : l'.InOrder := by
  obtain ⟨⟨i, p, o⟩, hpump, rfl⟩ := Option.map_eq_some_iff.mp hstep
  obtain ⟨-, -, -, -, hends, hsent, hgot⟩ := Pump.moved_of_step hpump
  refine ⟨?_, ?_, h.third, hends h.one, ?_⟩
  · dsimp only
    rw [hsent.2.2]
    exact h.first
  · dsimp only
    rw [hgot.2]
    exact h.second
  · refine ⟨fun hdone => ?_, h.two.done, h.two.finished⟩
    dsimp only
    rw [hgot.2]
    exact h.two.readDone hdone

/-- The pump at the server passes the end on after the bytes. -/
lemma InOrder.pumpTwo (h : l.InOrder) {a : PumpAction} (hstep : l.pumpTwo a = some l') : l'.InOrder := by
  obtain ⟨⟨i, p, o⟩, hpump, rfl⟩ := Option.map_eq_some_iff.mp hstep
  obtain ⟨-, -, -, -, hends, hsent, hgot⟩ := Pump.moved_of_step hpump
  refine ⟨h.first, ?_, ?_, ?_, hends h.two⟩
  · dsimp only
    rw [hsent.2.2]
    exact h.second
  · dsimp only
    rw [hgot.2]
    exact h.third
  · refine ⟨h.one.readDone, h.one.done, fun hfinished => ?_⟩
    dsimp only at hfinished
    rw [hsent.2.1] at hfinished
    exact h.one.finished hfinished

/-- The network passes the bytes of every hop on. -/
lemma Carries.net (h : l.Carries put left taken) {a : HopAction} {place : Place}
    (hstep : l.net a place = some l') : l'.Carries put left taken := by
  cases place with
  | first =>
    obtain ⟨hop, hnet, rfl⟩ := Option.map_eq_some_iff.mp hstep
    obtain ⟨hsent, -, hgot, -⟩ := Hop.net_spec hnet
    exact ⟨h.first.net hnet, h.second, h.third, hgot ▸ h.one, h.two, h.oneRoom, h.twoRoom⟩
  | second =>
    obtain ⟨hop, hnet, rfl⟩ := Option.map_eq_some_iff.mp hstep
    obtain ⟨hsent, -, hgot, -⟩ := Hop.net_spec hnet
    exact ⟨h.first, h.second.net hnet, h.third, hsent ▸ h.one, hgot ▸ h.two, h.oneRoom, h.twoRoom⟩
  | third =>
    obtain ⟨hop, hnet, rfl⟩ := Option.map_eq_some_iff.mp hstep
    obtain ⟨hsent, -, hgot, -⟩ := Hop.net_spec hnet
    exact ⟨h.first, h.second, h.third.net hnet, h.one, hsent ▸ h.two, h.oneRoom, h.twoRoom⟩

/-- Unless it resets a hop, the network keeps the ends in order. -/
lemma InOrder.net (h : l.InOrder) {a : HopAction} {place : Place} (ha : a.isReset = false)
    (hstep : l.net a place = some l') : l'.InOrder := by
  cases place with
  | first =>
    obtain ⟨hop, hnet, rfl⟩ := Option.map_eq_some_iff.mp hstep
    exact ⟨Hop.net_ending hnet ha, h.second, h.third, h.one.net_input hnet, h.two⟩
  | second =>
    obtain ⟨hop, hnet, rfl⟩ := Option.map_eq_some_iff.mp hstep
    exact ⟨h.first, Hop.net_ending hnet ha, h.third, h.one.net_output hnet, h.two.net_input hnet⟩
  | third =>
    obtain ⟨hop, hnet, rfl⟩ := Option.map_eq_some_iff.mp hstep
    exact ⟨h.first, h.second, Hop.net_ending hnet ha, h.one, h.two.net_output hnet⟩

/-- What an end writes goes behind what it has written. -/
lemma Carries.write (h : l.Carries put left taken) {bs : List UInt8} (hstep : l.write bs = some l') :
    l'.Carries put left taken := by
  obtain ⟨hopen, rfl⟩ := Option.ite_none_right_eq_some.mp hstep |>.imp_right Option.some.inj
  exact ⟨h.first.write hopen, h.second, h.third, h.one, h.two, h.oneRoom, h.twoRoom⟩

/-- An end writes before it finishes. -/
lemma InOrder.write (h : l.InOrder) {bs : List UInt8} (hstep : l.write bs = some l') : l'.InOrder := by
  obtain ⟨-, rfl⟩ := Option.ite_none_right_eq_some.mp hstep |>.imp_right Option.some.inj
  exact ⟨h.first, h.second, h.third, ⟨h.one.readDone, h.one.done, h.one.finished⟩, h.two⟩

/-- The end of the input changes no byte. -/
lemma Carries.finish (h : l.Carries put left taken) : l.finish.Carries put left taken :=
  ⟨h.first.shutdown, h.second, h.third, h.one, h.two, h.oneRoom, h.twoRoom⟩

/-- The end of the input comes after what was written. -/
lemma InOrder.finish (h : l.InOrder) : l.finish.InOrder :=
  ⟨h.first, h.second, h.third, ⟨h.one.readDone, h.one.done, h.one.finished⟩, h.two⟩

/-- What an end reads comes next in the order. -/
lemma Carries.read (h : l.Carries put left taken) {n : ℕ} (hstep : l.read n = some l') :
    l'.Carries put left taken := by
  obtain ⟨hn, rfl⟩ := Option.ite_none_right_eq_some.mp hstep |>.imp_right Option.some.inj
  exact ⟨h.first, h.second, h.third.read hn, h.one, h.two, h.oneRoom, h.twoRoom⟩

/-- A read does not touch the ends. -/
lemma InOrder.read (h : l.InOrder) {n : ℕ} (hstep : l.read n = some l') : l'.InOrder := by
  obtain ⟨hn, rfl⟩ := Option.ite_none_right_eq_some.mp hstep |>.imp_right Option.some.inj
  obtain ⟨-, -, hending⟩ := l.third.read_spec hn
  exact ⟨h.first, h.second, hending ▸ h.third, h.one,
    ⟨h.two.readDone, h.two.done, h.two.finished⟩⟩

/-- In order, what was sent has been received or is on the way. -/
lemma Carries.sent (h : l.Carries put left taken) (ho : l.InOrder) :
    put ++ l.first.sent = taken ++ (l.third.got ++ l.onTheWay left) := by
  calc put ++ l.first.sent
      = (put ++ l.first.got) ++ l.first.onTheWay := by
        rw [h.first.sent ho.first, List.append_assoc]
    _ = l.second.sent ++ (left ++ (l.one.buf ++ l.first.onTheWay)) := by
        rw [h.one]
        simp only [List.append_assoc]
    _ = l.second.got ++ (l.second.onTheWay ++ (left ++ (l.one.buf ++ l.first.onTheWay))) := by
        rw [h.second.sent ho.second, List.append_assoc]
    _ = taken ++ (l.third.sent ++ (l.two.buf ++
          (l.second.onTheWay ++ (left ++ (l.one.buf ++ l.first.onTheWay))))) := by
        rw [h.two]
        simp only [List.append_assoc]
    _ = taken ++ (l.third.got ++ l.onTheWay left) := by
        rw [h.third.sent ho.third, onTheWay]
        simp only [List.append_assoc]

/-- The bytes that are read off the last hop begin those that were put in front of the first one and
sent over it. -/
lemma Carries.isPrefix (h : l.Carries put left taken) : taken ++ l.third.got <+: put ++ l.first.sent := by
  have hsecond : l.second.sent <+: put ++ l.first.sent := by
    have hone : l.second.sent <+: put ++ l.first.got := by
      rw [h.one]
      exact List.prefix_append ..
    exact hone.trans ((List.prefix_append_right_inj put).mpr h.first.isPrefix)
  have htwo : taken ++ l.third.sent <+: l.second.got := by
    rw [h.two, ← List.append_assoc]
    exact List.prefix_append ..
  exact ((List.prefix_append_right_inj taken).mpr h.third.isPrefix).trans
    (htwo.trans (h.second.isPrefix.trans hsecond))

/-- The end passes a direction behind everything else. -/
lemma Carries.passed (h : l.Carries put left taken) (ho : l.InOrder) (hend : l.third.stream.ending = .eof) :
    l.first.finished = true ∧ l.onTheWay left = l.third.stream.content ++ left ∧ l.one ≠ .new ∧
      l.two ≠ .new := by
  obtain ⟨-, hsecond, honSecond, htwo, htwoDone⟩ := ho.two.passed h.second h.third hend
  obtain ⟨hfinished, -, honFirst, hone, honeDone⟩ := ho.one.passed h.first h.second hsecond
  refine ⟨hfinished, ?_, fun hnew => ?_, fun hnew => ?_⟩
  rotate_left
  · rw [hnew] at honeDone
    cases honeDone
  · rw [hnew] at htwoDone
    cases htwoDone
  rw [onTheWay, honSecond, htwo, honFirst, hone, Hop.onTheWay, (h.third.finished hend).2]
  simp only [List.append_nil, List.nil_append]

end Line

/-! ## What the tunnel keeps -/

/-- What holds of the two directions and of the ends of the work connection. -/
structure Inv (frame : Frame) (t : Tunnel) : Prop where
  up : t.up.Carries [] [] []
  down : t.down.Carries (FrameCodec.frameBytes frame) t.client.left
    ((t.accepted.map FrameCodec.frameBytes).getD [])
  accepted : ∀ f ∈ t.accepted, f = frame
  reading : t.server = .reading → t.accepted = none
  held : t.server = .held ∨ t.server = .bridging → t.accepted ≠ none
  /-- Nothing goes back to the user before the first frame was read. -/
  waiting : t.accepted = none → t.down.third.sent = [] ∧ t.down.two = .new
  /-- No byte of the local service is written before the first frame. -/
  greeting : t.client.left ≠ [] → t.down.one = .new
  inOrder : t.failed = false → t.up.InOrder ∧ t.down.InOrder

variable {frame : Frame} {t t' : Tunnel}

/-- A direction changes at its hops only, and what was put onto the last one is the same. -/
lemma Inv.setLine_failed (h : Inv frame t) {d : Direction} (failed : Bool)
    (hcarries : ∀ put left taken, (t.line d).Carries put left taken → l'.Carries put left taken)
    (hfailed : failed = false → t.failed = false)
    (horder : failed = false → (t.line d).InOrder → l'.InOrder)
    (hkept : l'.one = (t.line d).one ∧ l'.two = (t.line d).two ∧
      l'.third.sent = (t.line d).third.sent) :
    Inv frame { t.setLine l' d with failed } := by
  obtain ⟨hone, htwo, hsent⟩ := hkept
  cases d with
  | up =>
    refine ⟨hcarries _ _ _ h.up, h.down, h.accepted, h.reading, h.held, h.waiting, h.greeting, fun hf => ?_⟩
    obtain ⟨hup, hdown⟩ := h.inOrder (hfailed hf)
    exact ⟨horder hf hup, hdown⟩
  | down =>
    refine ⟨h.up, hcarries _ _ _ h.down, h.accepted, h.reading, h.held, fun hnone => ?_, fun hleft => ?_,
      fun hf => ?_⟩
    · obtain ⟨hthird, hnew⟩ := h.waiting hnone
      exact ⟨hsent.trans hthird, htwo.trans hnew⟩
    · exact hone.trans (h.greeting hleft)
    · obtain ⟨hup, hdown⟩ := h.inOrder (hfailed hf)
      exact ⟨hup, horder hf hdown⟩

/-- A step inside one direction keeps the invariant when it keeps that of the direction. -/
lemma Inv.setLine (h : Inv frame t) {d : Direction}
    (hcarries : ∀ put left taken, (t.line d).Carries put left taken → l'.Carries put left taken)
    (horder : (t.line d).InOrder → l'.InOrder)
    (hkept : l'.one = (t.line d).one ∧ l'.two = (t.line d).two ∧
      l'.third.sent = (t.line d).third.sent) :
    Inv frame (t.setLine l' d) := by
  have hset := h.setLine_failed t.failed hcarries id (fun _ => horder) hkept
  cases d <;> exact hset

/-- The network touches neither the pumps nor what the last hop was given. -/
lemma Line.net_kept {a : HopAction} {place : Place} (hstep : l.net a place = some l') :
    l'.one = l.one ∧ l'.two = l.two ∧ l'.third.sent = l.third.sent := by
  cases place with
  | first =>
    obtain ⟨hop, -, rfl⟩ := Option.map_eq_some_iff.mp hstep
    exact ⟨rfl, rfl, rfl⟩
  | second =>
    obtain ⟨hop, -, rfl⟩ := Option.map_eq_some_iff.mp hstep
    exact ⟨rfl, rfl, rfl⟩
  | third =>
    obtain ⟨hop, hnet, rfl⟩ := Option.map_eq_some_iff.mp hstep
    exact ⟨rfl, rfl, (Hop.net_spec hnet).1⟩

/-- The client writes a part of the first frame. -/
lemma Inv.greet (h : Inv frame t) {left : List UInt8} (hclient : t.client = .greeting left)
    (hopen : t.down.second.finished = false) (n : ℕ) :
    Inv frame { t with
      down.second := t.down.second.write (left.take n)
      client := .greeting (left.drop n) } := by
  have hdown := h.down
  rw [hclient] at hdown
  refine ⟨h.up, ?_, h.accepted, h.reading, h.held, h.waiting, fun hleft => h.greeting ?_, fun hf => ?_⟩
  · refine ⟨hdown.first, hdown.second.write hopen, hdown.third, ?_, hdown.two, hdown.oneRoom,
      hdown.twoRoom⟩
    refine hdown.one.trans ?_
    simp only [ClientPc.left, Hop.write, List.append_assoc]
    rw [← List.append_assoc (left.take n), List.take_append_drop]
  · rw [hclient]
    intro hnil
    apply hleft
    rw [show left = [] from hnil]
    exact List.drop_nil
  · obtain ⟨hup, hd⟩ := h.inOrder hf
    exact ⟨hup, hd.first, hd.second, hd.third, ⟨hd.one.readDone, hd.one.done, hd.one.finished⟩,
      ⟨hd.two.readDone, hd.two.done, hd.two.finished⟩⟩

/-- The server reads the first frame: it is the one that the client has written. -/
lemma Inv.acceptStep (hframe : FrameCodec.Valid frame) (h : Inv frame t) (hnone : t.accepted = none)
    (haccept : t.acceptStep = some t') : Inv frame t' := by
  unfold Tunnel.acceptStep at haccept
  split at haccept
  swap
  · cases haccept
  next chunks ending hstream =>
  split at haccept
  swap
  · cases haccept
  next f rest hread =>
  obtain rfl := Option.some.inj haccept
  -- the bytes that have arrived are the frame and what is left
  have hne : ∀ c ∈ chunks.filter fun c => !c.isEmpty, c ≠ [] := by
    intro c hc hnil
    simp [hnil] at hc
  obtain ⟨hdecode, -, -, -, hbytes⟩ := FrameCodec.first_frame_agrees _ hne
  have hflatten : (chunks.filter fun c => !c.isEmpty).flatten = t.down.second.stream.content := by
    rw [List.flatten_filter_not_isEmpty, hstream]
    rfl
  have hcontent : t.down.second.stream.content = FrameCodec.frameBytes f ++ rest.flatten := by
    rw [← hflatten]
    exact (hbytes f rest hread).1
  have hdec : FrameCodec.decoder.decode t.down.second.stream.content = (.ok (some f), rest.flatten) := by
    rw [← hflatten]
    exact (hdecode f rest.flatten).mp ⟨rest, hread, rfl⟩
  -- nothing was read before
  have hdown := h.down
  obtain ⟨hthird, hnew⟩ := h.waiting hnone
  have hgot : t.down.second.got = [] := by
    rw [hdown.two, hnone, hthird, hnew]
    rfl
  obtain rfl : f = frame := by
    obtain ⟨v, hv⟩ := hdown.second.got
    have hreads : FrameCodec.decoder.Reads FrameCodec.frameBytes frame :=
      fun u => FrameCodec.decode_frameBytes u hframe
    have hsplit : t.down.second.stream.content ++ (v ++ (t.client.left ++ t.down.one.buf)) =
        FrameCodec.frameBytes frame ++ t.down.first.got := by
      rw [hdown.one, ← hv, hgot, List.nil_append, List.append_assoc]
    exact (hreads.item hsplit hdec).1
  refine ⟨h.up, ?_, fun g hg => (Option.some.inj hg).symm, nofun, nofun, nofun, h.greeting,
    fun hf => ?_⟩
  · refine ⟨hdown.first, ⟨?_, fun hreset => ?_, fun hend => hdown.second.finished ?_⟩, hdown.third,
      hdown.one, ?_, hdown.oneRoom, hdown.twoRoom⟩
    · have hsound := hdown.second.got
      rw [hgot, hcontent] at hsound
      rw [hgot]
      exact hsound
    · have hsent := hdown.second.sent (by rw [hstream]; exact hreset)
      unfold Hop.onTheWay at hsent ⊢
      rw [hgot, hcontent] at hsent
      dsimp only
      rw [hsent, hgot, List.nil_append, List.nil_append, List.append_assoc]
      rfl
    · rw [hstream]
      exact hend
    · dsimp only
      rw [hgot, hthird, hnew]
      simp [Pump.new]
  · obtain ⟨hup, hd⟩ := h.inOrder hf
    refine ⟨hup, hd.first, ?_, hd.third, ⟨hd.one.readDone, hd.one.done, hd.one.finished⟩, ?_⟩
    · have hsecond := hd.second
      rw [hstream] at hsecond
      exact hsecond
    · refine ⟨fun hdone => ?_, hd.two.done, hd.two.finished⟩
      dsimp only at hdone
      rw [hnew] at hdone
      cases hdone

/-- A probe shows the server the same stream. -/
lemma Inv.probe (h : Inv frame t) {stream : ByteStream}
    (hsame : HandOver.Same t.down.second.stream stream) :
    Inv frame { t with down.second.stream := stream } := by
  obtain ⟨hcontent, hending, -⟩ := hsame
  have hdown := h.down
  refine ⟨h.up, ?_, h.accepted, h.reading, h.held, h.waiting, h.greeting, fun hf => ?_⟩
  · refine ⟨hdown.first, ⟨?_, fun hreset => ?_, fun hend => hdown.second.finished (hending ▸ hend)⟩,
      hdown.third, hdown.one, hdown.two, hdown.oneRoom, hdown.twoRoom⟩
    · dsimp only
      rw [hcontent]
      exact hdown.second.got
    · have hsent := hdown.second.sent (hending ▸ hreset)
      unfold Hop.onTheWay at hsent ⊢
      dsimp only
      rw [hcontent]
      exact hsent
  · obtain ⟨hup, hd⟩ := h.inOrder hf
    refine ⟨hup, hd.first, hending ▸ hd.second, hd.third,
      ⟨hd.one.readDone, hd.one.done, hd.one.finished⟩, fun hdone => ?_, hd.two.done, hd.two.finished⟩
    dsimp only
    rw [hending, hcontent]
    exact hd.two.readDone hdone

/-- One step keeps the invariant. -/
lemma Inv.step (hframe : FrameCodec.Valid frame) (h : Inv frame t) {a : Action}
    (hstep : t.step a = some t') : Inv frame t' := by
  cases a with
  | send d bs =>
    obtain ⟨l', hwrite, rfl⟩ := Option.map_eq_some_iff.mp hstep
    refine h.setLine (fun _ _ _ hc => hc.write hwrite) (fun ho => ho.write hwrite) ?_
    obtain ⟨-, rfl⟩ := Option.ite_none_right_eq_some.mp hwrite |>.imp_right Option.some.inj
    exact ⟨rfl, rfl, rfl⟩
  | finish d =>
    obtain rfl := Option.some.inj hstep
    exact h.setLine (fun _ _ _ hc => hc.finish) (fun ho => ho.finish) ⟨rfl, rfl, rfl⟩
  | receive d n =>
    obtain ⟨l', hread, rfl⟩ := Option.map_eq_some_iff.mp hstep
    refine h.setLine (fun _ _ _ hc => hc.read hread) (fun ho => ho.read hread) ?_
    obtain ⟨-, rfl⟩ := Option.ite_none_right_eq_some.mp hread |>.imp_right Option.some.inj
    exact ⟨rfl, rfl, rfl⟩
  | net d place a =>
    obtain ⟨l', hnet, rfl⟩ := Option.map_eq_some_iff.mp hstep
    refine h.setLine_failed _ (fun _ _ _ hc => hc.net hnet) (fun hf => ?_) (fun hf ho => ?_)
      (Line.net_kept hnet)
    · exact (Bool.or_eq_false_iff.mp hf).1
    · exact ho.net (Bool.or_eq_false_iff.mp hf).2 hnet
  | greet n =>
    simp only [Tunnel.step] at hstep
    split at hstep
    swap
    · cases hstep
    next left hclient =>
    obtain ⟨hopen, rfl⟩ := Option.ite_none_right_eq_some.mp hstep |>.imp_right Option.some.inj
    exact h.greet hclient hopen n
  | start =>
    obtain ⟨hclient, rfl⟩ := Option.ite_none_right_eq_some.mp hstep |>.imp_right Option.some.inj
    have hdown := h.down
    rw [hclient] at hdown
    exact ⟨h.up, hdown, h.accepted, h.reading, h.held, h.waiting, nofun, h.inOrder⟩
  | accept =>
    obtain ⟨hserver, haccept⟩ := Option.ite_none_right_eq_some.mp hstep
    exact h.acceptStep hframe (h.reading hserver) haccept
  | probe =>
    obtain ⟨-, hmap⟩ := Option.ite_none_right_eq_some.mp hstep
    obtain ⟨stream, hprobe, rfl⟩ := Option.map_eq_some_iff.mp hmap
    exact h.probe (HandOver.same_of_probeAlive hprobe)
  | attach =>
    obtain ⟨hserver, rfl⟩ := Option.ite_none_right_eq_some.mp hstep |>.imp_right Option.some.inj
    exact ⟨h.up, h.down, h.accepted, nofun, fun _ => h.held (.inl hserver), h.waiting,
      h.greeting, h.inOrder⟩
  | serverPump d a =>
    obtain ⟨hserver, hmap⟩ := Option.ite_none_right_eq_some.mp hstep
    cases d with
    | up =>
      obtain ⟨up, hpump, rfl⟩ := Option.map_eq_some_iff.mp hmap
      refine ⟨h.up.pumpOne hpump, h.down, h.accepted, h.reading, h.held, h.waiting, h.greeting,
        fun hf => ?_⟩
      obtain ⟨hup, hdown⟩ := h.inOrder hf
      exact ⟨hup.pumpOne hpump, hdown⟩
    | down =>
      obtain ⟨down, hpump, rfl⟩ := Option.map_eq_some_iff.mp hmap
      refine ⟨h.up, h.down.pumpTwo hpump, h.accepted, h.reading, h.held, fun hnone => ?_, ?_,
        fun hf => ?_⟩
      · exact absurd hnone (h.held (.inr hserver))
      · obtain ⟨-, -, rfl⟩ := Option.map_eq_some_iff.mp hpump
        exact h.greeting
      · obtain ⟨hup, hdown⟩ := h.inOrder hf
        exact ⟨hup, hdown.pumpTwo hpump⟩
  | clientPump d a =>
    obtain ⟨hclient, hmap⟩ := Option.ite_none_right_eq_some.mp hstep
    cases d with
    | up =>
      obtain ⟨up, hpump, rfl⟩ := Option.map_eq_some_iff.mp hmap
      refine ⟨h.up.pumpTwo hpump, h.down, h.accepted, h.reading, h.held, h.waiting, h.greeting,
        fun hf => ?_⟩
      obtain ⟨hup, hdown⟩ := h.inOrder hf
      exact ⟨hup.pumpTwo hpump, hdown⟩
    | down =>
      obtain ⟨down, hpump, rfl⟩ := Option.map_eq_some_iff.mp hmap
      have hnone : t.client.left = [] := by rw [hclient]; rfl
      have hdown := h.down
      rw [hnone] at hdown
      have hpumped : down.Carries (FrameCodec.frameBytes frame) t.client.left
          ((t.accepted.map FrameCodec.frameBytes).getD []) := by
        rw [hnone]
        exact hdown.pumpOne hpump
      refine ⟨h.up, hpumped, h.accepted, h.reading, h.held, ?_, fun hleft => ?_, fun hf => ?_⟩
      · obtain ⟨-, -, rfl⟩ := Option.map_eq_some_iff.mp hpump
        exact h.waiting
      · exact absurd hnone hleft
      · obtain ⟨hup, hd⟩ := h.inOrder hf
        exact ⟨hup, hd.pumpOne hpump⟩
  | serverFail =>
    obtain rfl := Option.some.inj hstep
    refine ⟨?_, ?_, h.accepted, nofun, nofun, h.waiting, h.greeting, nofun⟩
    · have hup := h.up
      exact ⟨hup.first, hup.second.shutdown, hup.third, hup.one, hup.two, hup.oneRoom, hup.twoRoom⟩
    · have hdown := h.down
      exact ⟨hdown.first, hdown.second, hdown.third.shutdown, hdown.one, hdown.two, hdown.oneRoom,
        hdown.twoRoom⟩
  | clientFail =>
    obtain rfl := Option.some.inj hstep
    refine ⟨?_, ?_, h.accepted, h.reading, h.held, h.waiting, h.greeting, nofun⟩
    · have hup := h.up
      exact ⟨hup.first, hup.second, hup.third.shutdown, hup.one, hup.two, hup.oneRoom, hup.twoRoom⟩
    · have hdown := h.down
      exact ⟨hdown.first, hdown.second.shutdown, hdown.third, hdown.one, hdown.two, hdown.oneRoom,
        hdown.twoRoom⟩

/-- The invariant of a tunnel whose user was looked into. -/
lemma Inv.new {parse : List UInt8 → HandOver.HeadParse} {looks : List HandOver.Look}
    {chunks : List (List UInt8)} (hnew : Tunnel.new parse looks chunks frame = some t) : Inv frame t := by
  obtain ⟨stream, hhand, rfl⟩ := Option.map_eq_some_iff.mp hnew
  obtain ⟨hcontent, hending, -⟩ := HandOver.same_of_handOver hhand
  have hbytes : stream.content = chunks.flatten := hcontent
  have hstalls : stream.ending = .stalls := hending
  have hfirst : Hop.Sound ⟨chunks.flatten, false, [], stream, []⟩ := by
    refine ⟨?_, fun _ => ?_, fun hend => ?_⟩
    · dsimp only
      rw [hbytes, List.nil_append]
    · dsimp only [Hop.onTheWay]
      rw [hbytes, List.nil_append, List.append_nil]
    · dsimp only at hend
      rw [hstalls] at hend
      cases hend
  have hroom : Pump.new.buf.length ≤ bridgeBufSize := Nat.zero_le _
  refine ⟨⟨hfirst, .idle, .idle, rfl, rfl, hroom, hroom⟩, ⟨.idle, .idle, .idle, ?_, rfl, hroom, hroom⟩,
    nofun, fun _ => rfl, nofun, fun _ => ⟨rfl, rfl⟩, fun _ => rfl, fun _ => ⟨?_, ?_⟩⟩
  · simp [Line.new, Hop.idle, ClientPc.left, Pump.new]
  · refine ⟨?_, nofun, nofun, .idle _ _ rfl, .idle _ _ rfl⟩
    dsimp only [Line.new]
    rw [hstalls]
    nofun
  · exact ⟨nofun, nofun, nofun, .idle _ _ rfl, .idle _ _ rfl⟩

/-- The invariant holds in every run. -/
lemma inv_of_run {parse : List UInt8 → HandOver.HeadParse} {looks : List HandOver.Look}
    {chunks : List (List UInt8)} {t₀ : Tunnel} {as : List Action} (hframe : FrameCodec.Valid frame)
    (hnew : Tunnel.new parse looks chunks frame = some t₀) (hrun : Exec.run Tunnel.step t₀ as = some t) :
    Inv frame t :=
  Exec.run_induction (fun _ _ _ hinv hstep => hinv.step hframe hstep) (Inv.new hnew) hrun

/-! ## Transparency -/

/-- What the two ends see of each other. -/
structure Transparent (frame : Frame) (t : Tunnel) : Prop where
  /-- Each end receives the first of the bytes that the other one has sent. -/
  up : t.up.third.got <+: t.up.first.sent
  down : t.down.third.got <+: t.down.first.sent
  /-- The server reads the frame that the client has written. -/
  accepted : ∀ f ∈ t.accepted, f = frame
  /-- The bridges hold no more than their buffers. -/
  room : t.up.one.buf.length ≤ bridgeBufSize ∧ t.up.two.buf.length ≤ bridgeBufSize ∧
    t.down.one.buf.length ≤ bridgeBufSize ∧ t.down.two.buf.length ≤ bridgeBufSize
  /-- As long as nothing has failed, no byte is lost. -/
  upWhole : t.failed = false → t.up.first.sent = t.up.third.got ++ t.up.onTheWay []
  downWhole : t.failed = false → t.accepted ≠ none →
    t.down.first.sent = t.down.third.got ++ t.down.onTheWay t.client.left
  /-- An end whose stream has ended has received everything, or has it in its stream. -/
  upEnd : t.failed = false → t.up.third.stream.ending = .eof →
    t.up.first.finished = true ∧ t.up.first.sent = t.up.third.got ++ t.up.third.stream.content
  downEnd : t.failed = false → t.down.third.stream.ending = .eof →
    t.down.first.finished = true ∧ t.down.first.sent = t.down.third.got ++ t.down.third.stream.content

/-- Under the invariant the tunnel is transparent. -/
lemma Inv.transparent (h : Inv frame t) : Transparent frame t where
  up := h.up.isPrefix
  down := by
    cases haccepted : t.accepted with
    | none =>
      have hgot := h.down.third.isPrefix
      rw [(h.waiting haccepted).1, List.prefix_nil] at hgot
      rw [hgot]
      exact List.nil_prefix
    | some f =>
      have hprefix := h.down.isPrefix
      rw [haccepted, h.accepted f haccepted] at hprefix
      exact (List.prefix_append_right_inj _).mp hprefix
  accepted := h.accepted
  room := ⟨h.up.oneRoom, h.up.twoRoom, h.down.oneRoom, h.down.twoRoom⟩
  upWhole hf := h.up.sent (h.inOrder hf).1
  downWhole hf hsome := by
    obtain ⟨f, hf'⟩ := Option.ne_none_iff_exists'.mp hsome
    have hsent := h.down.sent (h.inOrder hf).2
    rw [hf', h.accepted f hf'] at hsent
    exact List.append_cancel_left hsent
  upEnd hf hend := by
    have hsent := h.up.sent (h.inOrder hf).1
    obtain ⟨hfinished, honTheWay, -, -⟩ := h.up.passed (h.inOrder hf).1 hend
    rw [honTheWay, List.append_nil] at hsent
    exact ⟨hfinished, hsent⟩
  downEnd hf hend := by
    have hd := (h.inOrder hf).2
    have hsent := h.down.sent hd
    obtain ⟨hfinished, honTheWay, hone, htwo⟩ := h.down.passed hd hend
    -- both pumps have run, so that the frame was written and read
    have hleft : t.client.left = [] := by
      by_contra hleft
      exact hone (h.greeting hleft)
    obtain ⟨f, haccepted⟩ : ∃ f, t.accepted = some f := by
      refine Option.ne_none_iff_exists'.mp fun hnone => ?_
      exact htwo (h.waiting hnone).2
    rw [honTheWay, hleft, List.append_nil, haccepted, h.accepted f haccepted] at hsent
    exact ⟨hfinished, List.append_cancel_left hsent⟩

/-- **The tunnel is transparent**: in every run, whatever the network and the scheduler do, the
local service receives the first of the bytes that the user has sent and the user receives the first
of those of the service, in order and none twice; the `StartWorkConn` frame is taken off exactly,
and what was read ahead of the bridge is not lost.  As long as nothing has failed, every byte is
received or on the way, and an end of stream arrives behind the last byte. -/
theorem tcp_tunnel_transparent {parse : List UInt8 → HandOver.HeadParse} {looks : List HandOver.Look}
    {chunks : List (List UInt8)} {t₀ : Tunnel} {as : List Action} (hframe : FrameCodec.Valid frame)
    (hnew : Tunnel.new parse looks chunks frame = some t₀) (hrun : Exec.run Tunnel.step t₀ as = some t) :
    Transparent frame t :=
  (inv_of_run hframe hnew hrun).transparent

/-- A request whose head was read by the server reaches the local service, and one byte comes back;
the first frame arrives together with it, and the work connection is probed. -/
theorem tcp_tunnel_transparent_exchange :
    ∃ t₀ t,
      Tunnel.new HandOver.parseGetRequest [.head [.stream]] [HandOver.getRequest] ⟨2, 8, [7]⟩ = some t₀ ∧
      Exec.run Tunnel.step t₀
        [.greet 3, .greet 4, .start, .send .down [9], .net .down .first (.arrive 1),
          .clientPump .down (.read 8), .clientPump .down (.write 8), .net .down .second (.arrive 8), .accept,
          .probe, .attach, .serverPump .up (.read 64), .serverPump .up (.write 64),
          .net .up .second (.arrive 64), .clientPump .up (.read 64), .clientPump .up (.write 64),
          .net .up .third (.arrive 64), .receive .up 64, .serverPump .down (.read 8),
          .serverPump .down (.write 8), .net .down .third (.arrive 8), .receive .down 8] = some t ∧
      t.up.third.got = HandOver.getRequest ∧ t.down.third.got = [9] ∧ Transparent ⟨2, 8, [7]⟩ t := by
  have hrun :
    ∃ t₀ t,
      Tunnel.new HandOver.parseGetRequest [.head [.stream]] [HandOver.getRequest] ⟨2, 8, [7]⟩ = some t₀ ∧
      Exec.run Tunnel.step t₀
        [.greet 3, .greet 4, .start, .send .down [9], .net .down .first (.arrive 1),
          .clientPump .down (.read 8), .clientPump .down (.write 8), .net .down .second (.arrive 8), .accept,
          .probe, .attach, .serverPump .up (.read 64), .serverPump .up (.write 64),
          .net .up .second (.arrive 64), .clientPump .up (.read 64), .clientPump .up (.write 64),
          .net .up .third (.arrive 64), .receive .up 64, .serverPump .down (.read 8),
          .serverPump .down (.write 8), .net .down .third (.arrive 8), .receive .down 8] = some t ∧
      t.up.third.got = HandOver.getRequest ∧ t.down.third.got = [9] := ⟨_, _, rfl, rfl, rfl, rfl⟩
  obtain ⟨t₀, t, hnew, hrun, hup, hdown⟩ := hrun
  exact ⟨t₀, t, hnew, hrun, hup, hdown, tcp_tunnel_transparent ⟨rfl, by decide⟩ hnew hrun⟩

/-! ## Progress -/

/-- What a direction does by itself while both bridges run. -/
inductive Line.Moves (l : Line) : Line → Prop where
  | net {l' : Line} (a : HopAction) (place : Place) (ha : a.isReset = false)
    (h : l.net a place = some l') : l.Moves l'
  | pumpOne {l' : Line} (a : PumpAction) (h : l.pumpOne a = some l') : l.Moves l'
  | pumpTwo {l' : Line} (a : PumpAction) (h : l.pumpTwo a = some l') : l.Moves l'
  | read {l' : Line} (n : ℕ) (h : l.read n = some l') : l.Moves l'

/-- How far the bytes of a direction, and the polls in vain before them, are from its end. -/
def Line.weight (l : Line) : ℕ :=
  l.third.stream.patience + 2 * l.third.wire.length + 3 * l.two.buf.length +
    4 * l.second.stream.patience + 5 * l.second.wire.length + 6 * l.one.buf.length +
    7 * l.first.stream.patience + 8 * l.first.wire.length

namespace Line

/-- A move that delivers keeps the invariant of its direction, and its input. -/
lemma Moves.kept (hmove : l.Moves l') (hc : l.Carries put [] taken) (ho : l.InOrder) :
    l'.Carries put [] taken ∧ l'.InOrder ∧ l'.first.sent = l.first.sent := by
  cases hmove with
  | net a place ha h =>
    refine ⟨hc.net h, ho.net ha h, ?_⟩
    cases place with
    | first =>
      obtain ⟨hop, hnet, rfl⟩ := Option.map_eq_some_iff.mp h
      exact (Hop.net_spec hnet).1
    | second =>
      obtain ⟨hop, -, rfl⟩ := Option.map_eq_some_iff.mp h
      rfl
    | third =>
      obtain ⟨hop, -, rfl⟩ := Option.map_eq_some_iff.mp h
      rfl
  | pumpOne a h =>
    refine ⟨hc.pumpOne h, ho.pumpOne h, ?_⟩
    obtain ⟨⟨i, p, o⟩, hpump, rfl⟩ := Option.map_eq_some_iff.mp h
    exact (Pump.moved_of_step hpump).sent.1
  | pumpTwo a h =>
    refine ⟨hc.pumpTwo h, ho.pumpTwo h, ?_⟩
    obtain ⟨⟨i, p, o⟩, -, rfl⟩ := Option.map_eq_some_iff.mp h
    rfl
  | read n h =>
    refine ⟨hc.read h, ho.read h, ?_⟩
    obtain ⟨-, rfl⟩ := Option.ite_none_right_eq_some.mp h |>.imp_right Option.some.inj
    rfl

/-- What is on the wire of a hop in order can arrive. -/
lemma arrive_step {h : Hop} (hs : h.Sound) (hreset : h.stream.ending ≠ .reset) (hwire : h.wire ≠ []) :
    ∃ h', h.net (.arrive h.wire.length) = some h' ∧ h'.wire = [] ∧
      h'.stream.patience = h.stream.patience + h.wire.length := by
  have hstalls : h.stream.ending = .stalls := by
    cases hend : h.stream.ending with
    | stalls => rfl
    | eof => exact absurd (hs.finished hend).2 hwire
    | reset => exact absurd hend hreset
  have hpos := List.length_pos_iff.mpr hwire
  refine ⟨{ h with wire := [], stream := h.stream.arrive h.wire }, ?_, rfl, ?_⟩
  · simp [Hop.net, hstalls, hpos, hwire]
  · exact h.stream.patience_arrive hwire

/-- The hop at a place. -/
def hop (l : Line) : Place → Hop
  | .first => l.first
  | .second => l.second
  | .third => l.third

/-- Bytes on the wire of a hop can arrive, which brings the direction nearer to its end. -/
lemma exists_arrive (place : Place) (hs : (l.hop place).Sound)
    (hreset : (l.hop place).stream.ending ≠ .reset) (hwire : (l.hop place).wire ≠ []) :
    ∃ l', l.Moves l' ∧ l'.weight < l.weight := by
  obtain ⟨h', hstep, hnone, hpatience⟩ := arrive_step hs hreset hwire
  have hpos := List.length_pos_iff.mpr hwire
  cases place with
  | first =>
    refine ⟨{ l with first := h' }, .net (.arrive l.first.wire.length) .first rfl ?_, ?_⟩
    · exact Option.map_eq_some_iff.mpr ⟨h', hstep, rfl⟩
    dsimp only [hop] at hpatience hpos
    dsimp only [weight]
    rw [hnone, hpatience, List.length_nil]
    omega
  | second =>
    refine ⟨{ l with second := h' }, .net (.arrive l.second.wire.length) .second rfl ?_, ?_⟩
    · exact Option.map_eq_some_iff.mpr ⟨h', hstep, rfl⟩
    dsimp only [hop] at hpatience hpos
    dsimp only [weight]
    rw [hnone, hpatience, List.length_nil]
    omega
  | third =>
    refine ⟨{ l with third := h' }, .net (.arrive l.third.wire.length) .third rfl ?_, ?_⟩
    · exact Option.map_eq_some_iff.mpr ⟨h', hstep, rfl⟩
    dsimp only [hop] at hpatience hpos
    dsimp only [weight]
    rw [hnone, hpatience, List.length_nil]
    omega

/-- An output that is shut down has an empty buffer in front of it. -/
lemma open_of_buf {i o : Hop} {p : Pump} (he : p.Ends i o) (hbuf : p.buf ≠ []) : o.finished = false := by
  by_contra hfinished
  rw [Bool.not_eq_false] at hfinished
  exact hbuf (he.done (he.finished hfinished)).2

/-- A pump whose input has bytes has not seen its end. -/
lemma readable_of_content {i o : Hop} {p : Pump} (he : p.Ends i o) (hcontent : i.stream.content ≠ []) :
    p.readDone = false := by
  by_contra hdone
  rw [Bool.not_eq_false] at hdone
  exact hcontent (he.readDone hdone).2

/-- A direction with bytes on the way brings some of them nearer to its end. -/
lemma exists_move (hc : l.Carries put [] taken) (ho : l.InOrder) (hway : l.onTheWay [] ≠ []) :
    ∃ l', l.Moves l' ∧ l'.weight < l.weight := by
  -- the hops and the pumps from the last one to the first
  by_cases hthird : l.third.stream.content ≠ []
  · have hpatience := ByteStream.patience_pollRead Nat.one_pos l.third.stream
    have hpos : 0 < l.third.stream.patience := Nat.add_pos_left (List.length_pos_iff.mpr hthird) _
    refine ⟨{ l with third := (l.third.read 1).2 }, .read 1 (if_pos Nat.one_pos), ?_⟩
    have hless : (l.third.read 1).2.stream.patience < l.third.stream.patience := by
      change (l.third.stream.pollRead 1).2.patience < _
      omega
    have hwire : (l.third.read 1).2.wire = l.third.wire := rfl
    dsimp only [weight]
    rw [hwire]
    omega
  by_cases hthirdWire : l.third.wire ≠ []
  · exact exists_arrive .third hc.third ho.third hthirdWire
  by_cases htwo : l.two.buf ≠ []
  · have hstep := Pump.write_step (i := l.second) (open_of_buf ho.two htwo) htwo
    have hpos := List.length_pos_iff.mpr htwo
    refine ⟨_, .pumpTwo _ (Option.map_eq_some_iff.mpr ⟨_, hstep, rfl⟩), ?_⟩
    dsimp only [weight, Hop.write]
    rw [List.length_append, List.length_nil]
    omega
  rw [ne_eq, not_not] at htwo
  by_cases hsecond : l.second.stream.content ≠ []
  · obtain ⟨i, p, hstep, hwire, hbuf, hless⟩ :=
      Pump.read_step (o := l.third) (readable_of_content ho.two hsecond) htwo hsecond
    refine ⟨_, .pumpTwo _ (Option.map_eq_some_iff.mpr ⟨_, hstep, rfl⟩), ?_⟩
    dsimp only [weight]
    rw [hwire, htwo, List.length_nil]
    omega
  by_cases hsecondWire : l.second.wire ≠ []
  · exact exists_arrive .second hc.second ho.second hsecondWire
  by_cases hone : l.one.buf ≠ []
  · have hstep := Pump.write_step (i := l.first) (open_of_buf ho.one hone) hone
    have hpos := List.length_pos_iff.mpr hone
    refine ⟨_, .pumpOne _ (Option.map_eq_some_iff.mpr ⟨_, hstep, rfl⟩), ?_⟩
    dsimp only [weight, Hop.write]
    rw [List.length_append, List.length_nil]
    omega
  rw [ne_eq, not_not] at hone
  by_cases hfirst : l.first.stream.content ≠ []
  · obtain ⟨i, p, hstep, hwire, hbuf, hless⟩ :=
      Pump.read_step (o := l.second) (readable_of_content ho.one hfirst) hone hfirst
    refine ⟨_, .pumpOne _ (Option.map_eq_some_iff.mpr ⟨_, hstep, rfl⟩), ?_⟩
    dsimp only [weight]
    rw [hwire, hone, List.length_nil]
    omega
  by_cases hfirstWire : l.first.wire ≠ []
  · exact exists_arrive .first hc.first ho.first hfirstWire
  rw [ne_eq, not_not] at hthird hthirdWire hsecond hsecondWire hfirst hfirstWire
  refine absurd ?_ hway
  simp only [onTheWay, Hop.onTheWay, hthird, hthirdWire, htwo, hsecond, hsecondWire, hone, hfirst, hfirstWire,
    List.append_nil]

/-- A direction whose bridges run can bring everything to its end. -/
lemma exists_drained (hc : l.Carries put [] taken) (ho : l.InOrder) :
    ∃ l', Relation.ReflTransGen Moves l l' ∧ l'.Carries put [] taken ∧ l'.InOrder ∧
      l'.first.sent = l.first.sent ∧ l'.onTheWay [] = [] := by
  induction hn : l.weight using Nat.strongRecOn generalizing l with
  | ind n ih =>
    by_cases hway : l.onTheWay [] = []
    · exact ⟨l, .refl, hc, ho, rfl, hway⟩
    obtain ⟨l₁, hmove, hless⟩ := exists_move hc ho hway
    obtain ⟨hc₁, ho₁, hsent⟩ := hmove.kept hc ho
    obtain ⟨l', hmoves, hc', ho', hsent', hnone⟩ := ih l₁.weight (hn ▸ hless) hc₁ ho₁ rfl
    exact ⟨l', .head hmove hmoves, hc', ho', hsent'.trans hsent, hnone⟩

end Line

/-- What the tunnel does by itself: the network delivers, the bridges pump, the ends read. -/
def Action.Internal : Action → Prop
  | .receive _ _ => True
  | .net _ _ a => a.isReset = false
  | .serverPump _ _ => True
  | .clientPump _ _ => True
  | _ => False

namespace Tunnel

/-- Both bridges run, and nothing has failed. -/
def Running (t : Tunnel) : Prop := t.server = .bridging ∧ t.client = .bridging ∧ t.failed = false

/-- Both bridges run on, whatever the state of a direction. -/
lemma Running.setLine (hr : t.Running) (d : Direction) : (t.setLine l d).Running := by
  cases d <;> exact hr

/-- A direction that can move moves the tunnel. -/
lemma Running.exists_step (hr : t.Running) {d : Direction} (hmove : (t.line d).Moves l') :
    ∃ a, a.Internal ∧ t.step a = some (t.setLine l' d) := by
  obtain ⟨hserver, hclient, hfailed⟩ := hr
  cases hmove with
  | net a place ha h =>
    refine ⟨.net d place a, ha, ?_⟩
    refine Option.map_eq_some_iff.mpr ⟨l', h, ?_⟩
    rw [ha, Bool.or_false]
    cases d <;> rfl
  | pumpOne a h =>
    cases d with
    | up =>
      refine ⟨.serverPump .up a, trivial, ?_⟩
      exact (if_pos hserver).trans (Option.map_eq_some_iff.mpr ⟨_, h, rfl⟩)
    | down =>
      refine ⟨.clientPump .down a, trivial, ?_⟩
      exact (if_pos hclient).trans (Option.map_eq_some_iff.mpr ⟨_, h, rfl⟩)
  | pumpTwo a h =>
    cases d with
    | up =>
      refine ⟨.clientPump .up a, trivial, ?_⟩
      exact (if_pos hclient).trans (Option.map_eq_some_iff.mpr ⟨_, h, rfl⟩)
    | down =>
      refine ⟨.serverPump .down a, trivial, ?_⟩
      exact (if_pos hserver).trans (Option.map_eq_some_iff.mpr ⟨_, h, rfl⟩)
  | read n h => exact ⟨.receive d n, trivial, Option.map_eq_some_iff.mpr ⟨_, h, rfl⟩⟩

/-- A direction that moves on and on moves the tunnel. -/
lemma Running.exists_run {d : Direction} (hr : t.Running)
    (hmoves : Relation.ReflTransGen Line.Moves (t.line d) l') :
    ∃ as, (∀ a ∈ as, a.Internal) ∧ Exec.run step t as = some (t.setLine l' d) := by
  generalize hl : t.line d = l at hmoves
  induction hmoves using Relation.ReflTransGen.head_induction_on generalizing t with
  | refl =>
    refine ⟨[], fun a ha => absurd ha List.not_mem_nil, ?_⟩
    subst hl
    cases d <;> rfl
  | head hmove _ ih =>
    subst hl
    obtain ⟨a, ha, hstep⟩ := hr.exists_step hmove
    obtain ⟨as, has, hrun⟩ := ih (hr.setLine d) (by cases d <;> rfl)
    refine ⟨a :: as, fun b hb => ?_, ?_⟩
    · rcases List.mem_cons.mp hb with rfl | hb
      · exact ha
      · exact has b hb
    · rw [Exec.run_cons_of_step hstep, hrun]
      cases d <;> rfl

end Tunnel

/-- **The tunnel delivers**: from every state in which both bridges run and nothing has failed,
however much is on the way in both directions, the network, the bridges and the two ends can go on,
without a byte being sent or a connection being lost, until each end has received everything that
the other one has sent.  The bounded buffers never block each other.  In the run that is shown every
read takes one byte: `copy_bidirectional` polls with all the room of its buffer, and a read may return
any part of that. -/
theorem tcp_tunnel_delivers {parse : List UInt8 → HandOver.HeadParse} {looks : List HandOver.Look}
    {chunks : List (List UInt8)} {t₀ : Tunnel} {as : List Action} (hframe : FrameCodec.Valid frame)
    (hnew : Tunnel.new parse looks chunks frame = some t₀) (hrun : Exec.run Tunnel.step t₀ as = some t)
    (hrunning : t.Running) :
    ∃ as' t', (∀ a ∈ as', a.Internal) ∧ Exec.run Tunnel.step t as' = some t' ∧ t'.failed = false ∧
      t'.up.third.got = t.up.first.sent ∧ t'.down.third.got = t.down.first.sent := by
  have h := inv_of_run hframe hnew hrun
  have hrunning' := hrunning
  obtain ⟨hserver, hclient, hfailed⟩ := hrunning'
  obtain ⟨hup, hd⟩ := h.inOrder hfailed
  -- first the way up, then the way down
  obtain ⟨up, hmovesUp, hcUp, hoUp, hsentUp, hnoneUp⟩ := Line.exists_drained h.up hup
  obtain ⟨as₁, has₁, hrun₁⟩ := Tunnel.Running.exists_run (d := .up) hrunning hmovesUp
  have hdown : t.down.Carries (FrameCodec.frameBytes frame) []
      ((t.accepted.map FrameCodec.frameBytes).getD []) := by
    have hleft : t.client.left = [] := by rw [hclient]; rfl
    rw [← hleft]
    exact hleft ▸ h.down
  obtain ⟨down, hmovesDown, hcDown, hoDown, hsentDown, hnoneDown⟩ := Line.exists_drained hdown hd
  obtain ⟨as₂, has₂, hrun₂⟩ := Tunnel.Running.exists_run (t := t.setLine up .up) (d := .down)
    (hrunning.setLine .up) hmovesDown
  refine ⟨as₁ ++ as₂, _, fun a ha => ?_, Exec.run_trans hrun₁ hrun₂, hfailed, ?_, ?_⟩
  · rcases List.mem_append.mp ha with ha | ha
    · exact has₁ a ha
    · exact has₂ a ha
  · have hsent := hcUp.sent hoUp
    rw [hnoneUp, List.append_nil] at hsent
    exact hsent.symm.trans hsentUp
  · have hsent := hcDown.sent hoDown
    obtain ⟨f, hf⟩ := Option.ne_none_iff_exists'.mp (h.held (.inr hserver))
    rw [hnoneDown, List.append_nil, hf, h.accepted f hf] at hsent
    exact (List.append_cancel_left hsent).symm.trans hsentDown

/-- One byte each way is delivered, behind the first frame and one byte that had arrived before it.
-/
theorem tcp_tunnel_delivers_pair :
    ∃ t₀ t as' t', Tunnel.new HandOver.parseGetRequest [] [[3]] ⟨2, 8, [7]⟩ = some t₀ ∧
      Exec.run Tunnel.step t₀
        [.greet 7, .start, .net .down .second (.arrive 7), .accept, .attach, .send .up [1], .send .down [2]] =
          some t ∧
      Exec.run Tunnel.step t as' = some t' ∧ t'.up.third.got = [3, 1] ∧ t'.down.third.got = [2] := by
  have hrun : ∃ t₀ t, Tunnel.new HandOver.parseGetRequest [] [[3]] ⟨2, 8, [7]⟩ = some t₀ ∧
      Exec.run Tunnel.step t₀
        [.greet 7, .start, .net .down .second (.arrive 7), .accept, .attach, .send .up [1], .send .down [2]] =
          some t ∧
      t.Running ∧ t.up.first.sent = [3, 1] ∧ t.down.first.sent = [2] :=
    ⟨_, _, rfl, rfl, ⟨rfl, rfl, rfl⟩, rfl, rfl⟩
  obtain ⟨t₀, t, hnew, hrun, hrunning, hup, hdown⟩ := hrun
  obtain ⟨as', t', -, hrun', -, hup', hdown'⟩ := tcp_tunnel_delivers ⟨rfl, by decide⟩ hnew hrun hrunning
  exact ⟨t₀, t, as', t', hnew, hrun, hrun', hup'.trans hup, hdown'.trans hdown⟩

end TcpTunnel

end Rfrp
