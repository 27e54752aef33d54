import Rfrp.Common.Frame
import Rfrp.Common.Serde

/-!
# Control messages in frames

`Message::to_frame` and `Message::from_frame`: the type byte of a frame names the variant of the message,
and the payload is the struct of the variant in JSON.  The two tables of the variants are inverse to each
other, so that every message is read back from its frame (`fromFrame_toFrame`) and no frame is read as
another variant than the one it names (`msgType_of_fromFrame`).
-/

namespace Rfrp

/-! ## Payloads -/

instance : Derived Login where
  fields := [.required "run_id" FieldType.string, .required "token" FieldType.string,
    .required "version" FieldType.u8]
  values m := (m.runId, m.token, m.version, ())
  ofValues := fun (runId, token, version, ()) => ⟨runId, token, version⟩
  ofValues_values _ := rfl
  names_nodup := by decide

instance : Derived LoginResp where
  fields := [.required "ok" FieldType.bool, .optional "error" FieldType.string,
    .optional "session_id" FieldType.string, .optional "work_conn_tls" FieldType.bool,
    .optional "work_conn_token" FieldType.string]
  values m := (m.ok, m.error, m.sessionId, m.workConnTls, m.workConnToken, ())
  ofValues := fun (ok, error, sessionId, workConnTls, workConnToken, ()) =>
    ⟨ok, error, sessionId, workConnTls, workConnToken⟩
  ofValues_values _ := rfl
  names_nodup := by decide

instance : Derived NewProxy where
  fields := [.required "proxy_name" FieldType.string, .required "type" FieldType.proxyType,
    .optional "remote_port" FieldType.u16, .optional "custom_domains" (FieldType.vec .string)]
  values m := (m.proxyName, m.type, m.remotePort, m.customDomains, ())
  ofValues := fun (proxyName, type, remotePort, customDomains, ()) =>
    ⟨proxyName, type, remotePort, customDomains⟩
  ofValues_values _ := rfl
  names_nodup := by decide

instance : Derived NewProxyResp where
  fields := [.required "proxy_name" FieldType.string, .required "ok" FieldType.bool,
    .optional "error" FieldType.string]
  values m := (m.proxyName, m.ok, m.error, ())
  ofValues := fun (proxyName, ok, error, ()) => ⟨proxyName, ok, error⟩
  ofValues_values _ := rfl
  names_nodup := by decide

instance : Derived Heartbeat where
  fields := [.required "ts" FieldType.u64]
  values m := (m.ts, ())
  ofValues := fun (ts, ()) => ⟨ts⟩
  ofValues_values _ := rfl
  names_nodup := by decide

instance : Derived HeartbeatResp where
  fields := [.required "ts" FieldType.u64]
  values m := (m.ts, ())
  ofValues := fun (ts, ()) => ⟨ts⟩
  ofValues_values _ := rfl
  names_nodup := by decide

instance : Derived ReqWorkConn where
  fields := [.required "proxy_name" FieldType.string, .required "work_id" FieldType.u64]
  values m := (m.proxyName, m.workId, ())
  ofValues := fun (proxyName, workId, ()) => ⟨proxyName, workId⟩
  ofValues_values _ := rfl
  names_nodup := by decide

instance : Derived StartWorkConn where
  fields := [.required "proxy_name" FieldType.string, .required "work_id" FieldType.u64,
    .optional "work_conn_token" FieldType.string]
  values m := (m.proxyName, m.workId, m.workConnToken, ())
  ofValues := fun (proxyName, workId, workConnToken, ()) => ⟨proxyName, workId, workConnToken⟩
  ofValues_values _ := rfl
  names_nodup := by decide

instance : Derived Close where
  fields := [.optional "reason" FieldType.string]
  values m := (m.reason, ())
  ofValues := fun (reason, ()) => ⟨reason⟩
  ofValues_values _ := rfl
  names_nodup := by decide

/-! ## Frames -/

/-- `Error`, of a message that is written or read. -/
inductive MessageError (ε : Type) where
  | json (e : ε)
  | protocol (e : ProtocolError)
  deriving DecidableEq

/-- The error of a frame with a type byte that no variant has. -/
def unknownMsgType (other : UInt8) : ProtocolError :=
  ⟨"unknown msg_type: 0x" ++ String.ofList (Nat.toDigits 16 other.toNat)⟩

namespace Message

/-- `msg_type`. -/
def msgType : Message → UInt8
  | login _ => msgLogin
  | loginResp _ => msgLoginResp
  | newProxy _ => msgNewProxy
  | newProxyResp _ => msgNewProxyResp
  | heartbeat _ => msgHeartbeat
  | heartbeatResp _ => msgHeartbeatResp
  | reqWorkConn _ => msgReqWorkConn
  | startWorkConn _ => msgStartWorkConn
  | close _ => msgClose

/-- The type bytes count the variants, as `ctorIdx` does. -/
lemma toNat_msgType (m : Message) : m.msgType.toNat = m.ctorIdx + 1 := by
  cases m <;> rfl

variable {ε : Type} (serde : SerdeJson ε)

/-- The payload in `to_frame`. -/
def payload : Message → Except ε (List UInt8)
  | login m => serde.toVec m
  | loginResp m => serde.toVec m
  | newProxy m => serde.toVec m
  | newProxyResp m => serde.toVec m
  | heartbeat m => serde.toVec m
  | heartbeatResp m => serde.toVec m
  | reqWorkConn m => serde.toVec m
  | startWorkConn m => serde.toVec m
  | close m => serde.toVec m

/-- `to_frame`. -/
def toFrame (m : Message) : Except (MessageError ε) Frame :=
  match m.payload serde with
  | .ok payload => .ok ⟨protocolVersion, m.msgType, payload⟩
  | .error e => .error (.json e)

/-- One arm of `from_frame`. -/
def fromPayload {α : Type} [Derived α] (variant : α → Message) (payload : List UInt8) :
    Except (MessageError ε) Message :=
  match serde.fromSlice payload with
  | .ok m => .ok (variant m)
  | .error e => .error (.json e)

/-- `from_frame`. -/
def fromFrame (frame : Frame) : Except (MessageError ε) Message :=
  if frame.msgType = msgLogin then fromPayload serde login frame.payload
  else if frame.msgType = msgLoginResp then fromPayload serde loginResp frame.payload
  else if frame.msgType = msgNewProxy then fromPayload serde newProxy frame.payload
  else if frame.msgType = msgNewProxyResp then fromPayload serde newProxyResp frame.payload
  else if frame.msgType = msgHeartbeat then fromPayload serde heartbeat frame.payload
  else if frame.msgType = msgHeartbeatResp then fromPayload serde heartbeatResp frame.payload
  else if frame.msgType = msgReqWorkConn then fromPayload serde reqWorkConn frame.payload
  else if frame.msgType = msgStartWorkConn then fromPayload serde startWorkConn frame.payload
  else if frame.msgType = msgClose then fromPayload serde close frame.payload
  else .error (.protocol (unknownMsgType frame.msgType))

variable {serde}

/-- What is read from a payload is of the variant that was asked for. -/
lemma fromPayload_eq_ok {α : Type} [Derived α] {variant : α → Message} {payload : List UInt8}
    {m : Message} (h : fromPayload serde variant payload = .ok m) : ∃ a, m = variant a := by
  unfold fromPayload at h
  split at h
  · next a _ => exact ⟨a, (Except.ok.inj h).symm⟩
  · cases h

/-- A frame is read as the variant that its type byte names. -/
theorem msgType_of_fromFrame {frame : Frame} {m : Message} (h : fromFrame serde frame = .ok m) :
    m.msgType = frame.msgType := by
  unfold fromFrame at h
  iterate 9
    split at h
    · next htype =>
      obtain ⟨a, rfl⟩ := fromPayload_eq_ok h
      exact htype.symm
  cases h

/-- One variant, in both tables. -/
lemma fromFrame_variant (h : serde.Lawful) {α : Type} [Derived α] {variant : α → Message} (a : α)
    (hpayload : (variant a).payload serde = serde.toVec a)
    (hframe : ∀ payload, fromFrame serde ⟨protocolVersion, (variant a).msgType, payload⟩ =
      fromPayload serde variant payload) :
    ∃ payload, (variant a).toFrame serde = .ok ⟨protocolVersion, (variant a).msgType, payload⟩ ∧
      fromFrame serde ⟨protocolVersion, (variant a).msgType, payload⟩ = .ok (variant a) := by
  obtain ⟨bs, hwrite, hread⟩ := h.round_trip a
  refine ⟨bs, ?_, ?_⟩
  · rw [toFrame, hpayload, hwrite]
  · rw [hframe, fromPayload, hread]

/-- Every message is read back from its frame. -/
theorem fromFrame_toFrame (h : serde.Lawful) (m : Message) :
    ∃ payload, m.toFrame serde = .ok ⟨protocolVersion, m.msgType, payload⟩ ∧
      fromFrame serde ⟨protocolVersion, m.msgType, payload⟩ = .ok m := by
  cases m with
  | login m => exact fromFrame_variant h m rfl fun _ => rfl
  | loginResp m => exact fromFrame_variant h m rfl fun _ => rfl
  | newProxy m => exact fromFrame_variant h m rfl fun _ => rfl
  | newProxyResp m => exact fromFrame_variant h m rfl fun _ => rfl
  | heartbeat m => exact fromFrame_variant h m rfl fun _ => rfl
  | heartbeatResp m => exact fromFrame_variant h m rfl fun _ => rfl
  | reqWorkConn m => exact fromFrame_variant h m rfl fun _ => rfl
  | startWorkConn m => exact fromFrame_variant h m rfl fun _ => rfl
  | close m => exact fromFrame_variant h m rfl fun _ => rfl

/-- **Messages survive the wire**: every message has a frame and is read back from it, different messages
have different frames, and a frame is only ever read as the variant that its type byte names. -/
theorem message_round_trip (h : serde.Lawful) :
    (∀ m : Message, ∃ frame, m.toFrame serde = .ok frame ∧ frame.version = protocolVersion ∧
      frame.msgType = m.msgType ∧ fromFrame serde frame = .ok m) ∧
    (∀ m n : Message, m ≠ n → m.toFrame serde ≠ n.toFrame serde) ∧
    ∀ frame m, fromFrame serde frame = .ok m →
      m.msgType = frame.msgType ∧ ∀ n : Message, n.msgType = frame.msgType → n.ctorIdx = m.ctorIdx := by
  refine ⟨fun m => ?_, fun m n hne hframes => ?_, fun frame m hread => ?_⟩
  · obtain ⟨payload, hwrite, hread⟩ := fromFrame_toFrame h m
    exact ⟨_, hwrite, rfl, rfl, hread⟩
  · obtain ⟨payload, hwrite, hread⟩ := fromFrame_toFrame h m
    obtain ⟨payload', hwrite', hread'⟩ := fromFrame_toFrame h n
    rw [hwrite, hwrite'] at hframes
    rw [Except.ok.inj hframes, hread'] at hread
    exact hne (Except.ok.inj hread).symm
  · have htype := msgType_of_fromFrame hread
    refine ⟨htype, fun n hn => ?_⟩
    have hcount := toNat_msgType n
    rw [hn, ← htype, toNat_msgType] at hcount
    exact (Nat.succ.inj hcount).symm

/-- A `NewProxy` whose name has characters that are escaped. -/
theorem message_round_trip_newProxy :
    ∃ frame,
      toFrame SerdeJson.compact (.newProxy ⟨"w\n\"é", .https, none, some ["dev.example.com"]⟩) = .ok frame ∧
      frame.payload = bytes ("\x7b\"proxy_name\":\"w\\n\\\"é\",\"type\":\"https\"," ++
        "\"custom_domains\":[\"dev.example.com\"]\x7d") ∧
      fromFrame SerdeJson.compact frame =
        .ok (.newProxy ⟨"w\n\"é", .https, none, some ["dev.example.com"]⟩) := by
  obtain ⟨frame, hwrite, -, -, hread⟩ := (message_round_trip SerdeJson.compact_lawful).1
    (.newProxy ⟨"w\n\"é", .https, none, some ["dev.example.com"]⟩)
  refine ⟨frame, hwrite, ?_, hread⟩
  rw [← Except.ok.inj hwrite]
  rfl

end Message

end Rfrp
