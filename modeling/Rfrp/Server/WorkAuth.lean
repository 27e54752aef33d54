import Rfrp.Server.Ownership

/-!
# What a work connection has passed

A work connection presents a token; `handle_work_connection` compares it with that of the session the
proxy name resolves to.  This module says what a work connection that is not closed has passed, and
what becomes of the pending entries.
-/

namespace Rfrp

namespace ServerState

/-- The only token a session accepts is its own. -/
lemma verifyWorkConnToken_iff (session : Session) (provided : Option String) :
    verifyWorkConnToken session provided = true ↔ provided = some session.workConnToken := by
  unfold verifyWorkConnToken
  cases provided with
  | none => simp
  | some t => simp [verifyToken_iff]

/-- What a work connection that is not closed has passed, and where it went. -/
lemma handleWorkConnection_cases {st : ServerState} {frame : StartWorkConn} {work : WorkRef}
    {outcome : WorkOutcome} (h : (st.handleWorkConnection frame work).2 = outcome) :
    outcome = .closed ∨
      ∃ s, st.sessionForProxy frame.proxyName = some s ∧
        frame.workConnToken = some (st.sessionAt s).workConnToken ∧
        ((outcome = .pooled s) ∨
          (∃ e user, st.pending.get frame.workId = some e ∧
            e.sessionId = (st.sessionAt s).sessionId ∧ e.proxyName = frame.proxyName ∧
            e.user = some user ∧ outcome = .bridged user) ∨
          ∃ p, st.udp.get frame.proxyName = some p ∧ frame.workId ≠ workIdPoolReserved ∧
            outcome = .udp p) := by
  unfold handleWorkConnection at h
  split at h
  · exact .inl h.symm
  next s hs =>
  split at h
  · exact .inl h.symm
  next htok =>
  have htoken : frame.workConnToken = some (st.sessionAt s).workConnToken :=
    (verifyWorkConnToken_iff _ _).mp (by simpa using htok)
  split at h
  · split at h
    · exact .inl h.symm
    · next hid =>
      split at h
      · next p hp => exact .inr ⟨s, hs, htoken, .inr (.inr ⟨p, hp, hid, h.symm⟩)⟩
      · exact .inl h.symm
  split at h
  · split at h
    · exact .inr ⟨s, hs, htoken, .inl h.symm⟩
    · exact .inl h.symm
  · split at h
    · next e he =>
      split at h
      · next user huser =>
        refine .inr ⟨s, hs, htoken, .inr (.inl ⟨e, user, ?_⟩)⟩
        unfold takePending at he
        split at he
        · next e' he' =>
          split at he
          · next howned =>
            cases he
            exact ⟨he', howned.1, howned.2, huser, h.symm⟩
          · cases he
        · cases he
      · exact .inl h.symm
    · exact .inl h.symm

/-- A frame with the token of the session and the work id of a pending UDP session reaches the UDP
proxy that is filed under the name. -/
lemma handleWorkConnection_udp {st : ServerState} {name : ProxyName} {id : WorkId} {s : SessionRef}
    {p : UdpRef} (work : WorkRef) (hs : st.sessionForProxy name = some s)
    (hp : st.udp.get name = some p) (hid : id ≠ workIdPoolReserved) :
    (st.handleWorkConnection ⟨name, id, some (st.sessionAt s).workConnToken⟩ work).2 = .udp p := by
  have htok : verifyWorkConnToken (st.sessionAt s) (some (st.sessionAt s).workConnToken) = true :=
    (verifyWorkConnToken_iff _ _).mpr rfl
  have hudp : st.isUdpProxy name = true := (HashMap.containsKey_iff _ _).mpr ⟨p, hp⟩
  unfold handleWorkConnection
  simp only [hs, htok, Bool.not_true, Bool.false_eq_true, if_false, hudp, if_true, hid,
    getUdpProxy, hp]

/-! ## What becomes of pending entries -/

/-- An entry that is left after a sweep was there before. -/
lemma get_of_get_retain {m : HashMap WorkId PendingWork} {p : WorkId → PendingWork → Bool}
    {id : WorkId} {e : PendingWork} (h : (m.retain p).get id = some e) : m.get id = some e := by
  rw [HashMap.get_retain, Option.filter_eq_some_iff] at h
  exact h.1

/-- An entry that is left after a removal was there before. -/
lemma get_of_get_remove {m : HashMap WorkId PendingWork} {k id : WorkId} {e : PendingWork}
    (h : (m.remove k).get id = some e) : m.get id = some e := by
  rw [HashMap.get_remove] at h
  split at h
  · cases h
  · exact h

/-- The removal of a pending user adds none. -/
lemma removePending_pending {st : ServerState} {k id : WorkId} {e : PendingWork}
    (h : (st.removePending k).1.pending.get id = some e) : st.pending.get id = some e := by
  unfold removePending at h
  split at h
  · exact get_of_get_remove h
  · exact h

/-- The lookup for a work connection adds none. -/
lemma takePending_pending {st : ServerState} {s : SessionRef} {name : ProxyName} {k id : WorkId}
    {e : PendingWork} (h : (st.takePending s name k).1.pending.get id = some e) :
    st.pending.get id = some e := by
  unfold takePending at h
  split at h
  · split at h
    · exact get_of_get_remove h
    · exact h
  · exact h

/-- Pooling a connection does not touch the pending users. -/
lemma pushPooled_pending (st : ServerState) (s : SessionRef) (name : ProxyName) (work : WorkRef) :
    (st.pushPooled s name work).1.pending = st.pending := by
  obtain ⟨sessionAt, hframe⟩ := st.pushPooled_frame s name work
  rw [hframe]

/-- A work connection adds no pending user, whatever its frame says. -/
lemma handleWorkConnection_pending {st : ServerState} {frame : StartWorkConn} {work : WorkRef}
    {id : WorkId} {e : PendingWork}
    (h : (st.handleWorkConnection frame work).1.pending.get id = some e) :
    st.pending.get id = some e := by
  unfold handleWorkConnection at h
  split at h
  · exact h
  next s _ =>
  split at h
  · exact h
  split at h
  · split at h
    · exact h
    split at h <;> exact h
  split at h
  · have hpush := st.pushPooled_pending s frame.proxyName work
    split at h
    · next heq => rw [← hpush, heq]; exact h
    · next heq => rw [← hpush, heq]; exact h
  · have htake := @takePending_pending st s frame.proxyName frame.workId id e
    split at h
    · next heq =>
      rw [heq] at htake
      split at h <;> exact htake h
    · next heq =>
      rw [heq] at htake
      exact htake h

/-- A user connection that finds no pooled connection becomes pending at its session. -/
lemma dispatchUserConnection_pending {st : ServerState} {s : SessionRef} {name : ProxyName}
    {user : UserRef} {alive : WorkRef → Bool} {id : WorkId} {e : PendingWork}
    (h : (st.dispatchUserConnection s name user alive).1.pending.get id = some e) :
    st.pending.get id = some e ∨
      (e.proxyName = name ∧ e.sessionId = (st.sessionAt s).sessionId ∧ e.user = some user) := by
  unfold dispatchUserConnection at h
  split at h
  · exact .inl h
  · next st₁ hacc =>
    have hacc₁ : st₁.pending = st.pending ∧ st₁.sessionAt = st.sessionAt := by
      unfold acceptUser at hacc
      split at hacc
      · cases hacc
      · cases hacc; exact ⟨rfl, rfl⟩
    have hpop : ((st₁.countConnection name).popLivePooled s name alive).1.pending = st.pending ∧
        (((st₁.countConnection name).popLivePooled s name alive).1.sessionAt s).sessionId =
          (st.sessionAt s).sessionId := by
      refine ⟨?_, ?_⟩
      · rw [← hacc₁.1]
        unfold popLivePooled
        split <;> rfl
      · rw [(SameControl.popLivePooled _ s name alive).sessionId, ← hacc₁.2]
        rfl
    split at h
    · next st₂ work heq =>
      rw [heq] at hpop
      rw [← hpop.1]
      exact .inl h
    · next st₂ heq =>
      rw [heq] at hpop
      have hins : (st₂.nextWorkId.1.insertPending s name st₂.nextWorkId.2 user).pending.get id =
          some e := h
      unfold insertPending at hins
      rw [HashMap.get_insert] at hins
      split at hins
      · cases hins
        exact .inr ⟨rfl, hpop.2, rfl⟩
      · rw [← hpop.1]
        exact .inl hins

/-- A step of a UDP proxy does not touch the pending users. -/
lemma udpStep_pending {st st' : ServerState} {p : UdpRef} {a : Udp.Action}
    (h : st.udpStep p a = some st') : st'.pending = st.pending := by
  unfold udpStep at h
  split at h
  · cases h
  · cases h
  · cases h
  · split at h <;>
    · obtain ⟨m, -, rfl⟩ := Option.map_eq_some_iff.mp h
      rfl
  · obtain ⟨m, -, rfl⟩ := Option.map_eq_some_iff.mp h
    rfl

end ServerState

end Rfrp
