import Rfrp.Server.Streams

/-!
# Who removes a pending entry

A user connection that finds no pooled work connection waits in the table of pending connections.  The
entry is removed by a work connection, by `cleanup`, by its request task when the request cannot be sent,
or by the sweep when it is older than the timeout.  No entry is left to nobody: in every run an entry is
older than the timeout, or its request task is still there (`Watched`).
-/

namespace Rfrp

open ServerState

/-! ## The clock -/

/-- A registration does not move the clock. -/
lemma registerStep_now (env : Env) (st : ServerState) (s : SessionRef) (np : NewProxy)
    (outcome : BindOutcome) (r : RegisterPc) : (registerStep env st s np outcome r).1.now = st.now := by
  cases r with
  | limit => rw [registerStep]; split <;> rfl
  | name =>
    rw [registerStep]
    split
    · rfl
    · split <;> rfl
  | domainIndex rest =>
    cases rest with
    | nil =>
      rw [registerStep]
      split
      · rfl
      · split <;> rfl
    | cons d rest => rw [registerStep]; split <;> rfl
  | domainSession d r rest => rw [registerStep]; split <;> rfl
  | bind =>
    rw [registerStep]
    split
    · rfl
    · split <;> rfl
  | indexDomains handle rest => cases rest <;> rfl
  | _ => rfl

/-- A cleanup does not move the clock. -/
lemma cleanupStep_now (st : ServerState) (o : SessionRef) (c : CleanupPc) :
    (cleanupStep st o c).1.now = st.now := by
  cases c with
  | removeUdps n =>
    obtain ⟨udp, udpAt, h⟩ := st.removeUdps_frame n.udpNames
    exact (congrArg ServerState.now h :)
  | _ => rfl

/-- A control task does not move the clock. -/
lemma ControlTask.step_now {env : Env} {st st' : ServerState} {i : SessionRef} {t t' : ControlTask}
    {c : ControlChoice} {es : List Event} (h : t.step env st i c = some (st', t', es)) :
    st'.now = st.now := by
  unfold step at h
  split at h
  · obtain ⟨f, hf⟩ := st.loginAllowed_frame t.peerIp
    rcases hallowed : st.loginAllowed t.peerIp with ⟨st₁, allowed⟩
    rw [hallowed] at h hf
    cases h
    exact (congrArg ServerState.now hf :)
  · split at h
    · next l _ =>
      obtain ⟨f, hf⟩ := st.authenticate_frame env t.peerIp l
      split at h
      · next heq => rw [heq] at hf; cases h; exact (congrArg ServerState.now hf :)
      · next heq => rw [heq] at hf; cases h; exact (congrArg ServerState.now hf :)
    · cases h; rfl
  · cases h; rfl
  · next l sid tok _ =>
    have hswap : (st.swapSession i (newSession l.runId t.peerIp sid tok)).1.now = st.now := rfl
    split at h
    · next heq => rw [heq] at hswap; cases h; exact hswap
    · next heq => rw [heq] at hswap; cases h; exact hswap
  · next old c _ =>
    have hclean := cleanupStep_now st old c
    split at h
    · next heq => rw [heq] at hclean; cases h; exact hclean
    · next heq => rw [heq] at hclean; cases h; exact hclean
  · split at h
    · cases h
    · cases h; rfl
  · cases h; rfl
  · cases h; rfl
  · cases h; rfl
  · split at h
    · cases h; rfl
    · cases h
  · split at h
    · cases h; rfl
    · cases h
  · next np r outcome _ =>
    have hreg := registerStep_now env st i np outcome r
    split at h
    · next heq => rw [heq] at hreg; cases h; exact hreg
    · next heq => rw [heq] at hreg; cases h; exact hreg
    · next heq => rw [heq] at hreg; cases h; exact hreg
  · split at h
    · cases h; rfl
    · cases h
  · cases h; rfl
  · cases h; rfl
  · cases h
    obtain ⟨sessions, hframe⟩ := st.unregisterSession_frame i
    exact (congrArg ServerState.now hframe :)
  · next c _ =>
    have hclean := cleanupStep_now st i c
    split at h
    · next heq => rw [heq] at hclean; cases h; exact hclean
    · next heq => rw [heq] at hclean; cases h; exact hclean
  · cases h

/-- A data task does not move the clock. -/
lemma DataTask.step_now {st st' : ServerState} {t t' : DataTask} {c : DataChoice} {es : List Event}
    (h : t.step st c = some (st', t', es)) : st'.now = st.now := by
  unfold step at h
  split at h
  · split at h
    · next hacc =>
      cases h
      unfold acceptUser at hacc
      split at hacc
      · cases hacc
      · cases hacc; rfl
    · cases h; rfl
  · cases h; rfl
  · next s name user =>
    have hpop : (st.popPooled s name).1.now = st.now := by
      obtain ⟨sessionAt, hframe⟩ := st.popPooled_frame s name
      rw [hframe]
    split at h
    · next heq => rw [heq] at hpop; cases h; exact hpop
    · next heq => rw [heq] at hpop; cases h; exact hpop
  · cases h; rfl
  · cases h; rfl
  · cases h; rfl
  · cases h; rfl
  · cases h; rfl
  · cases h; rfl
  · next id =>
    have hremove : (st.removePending id).1.now = st.now := by
      obtain ⟨pending, metrics, hframe⟩ := st.removePending_frame id
      rw [hframe]
    cases h
    exact hremove
  · cases h; rfl
  · split at h
    · cases h; rfl
    · split at h <;> cases h <;> rfl
  · split at h
    · split at h <;> cases h <;> rfl
    · split at h <;> cases h <;> rfl
  · split at h <;> cases h <;> rfl
  · next work frame s =>
    have hpush : (st.pushPooled s frame.proxyName work).1.now = st.now := by
      obtain ⟨sessionAt, hframe⟩ := st.pushPooled_frame s frame.proxyName work
      rw [hframe]
    split at h
    · next heq => rw [heq] at hpush; cases h; exact hpush
    · next heq => rw [heq] at hpush; cases h; exact hpush
  · next work frame s =>
    have htake : (st.takePending s frame.proxyName frame.workId).1.now = st.now := by
      obtain ⟨pending, hframe⟩ := st.takePending_frame s frame.proxyName frame.workId
      rw [hframe]
    split at h
    · next heq =>
      rw [heq] at htake
      split at h <;> cases h <;> exact htake
    · next heq => rw [heq] at htake; cases h; exact htake
  · cases h; rfl
  · cases h; rfl
  · cases h

namespace World

variable {env : Env} {w w' : World}

/-- Time does not go back. -/
lemma now_le_of_step {a : Action} (h : step env w a = some w') : w.core.now ≤ w'.core.now := by
  have hsame : w'.core.now = w.core.now → w.core.now ≤ w'.core.now := fun heq => heq.ge
  cases a with
  | tick ms => cases h; exact Nat.le_add_right ..
  | shutdown => cases h; exact le_rfl
  | login first ip => cases h; exact le_rfl
  | control i c =>
    obtain ⟨es, hstep, -⟩ := task_of_controlStep h
    exact hsame (ControlTask.step_now hstep)
  | writer i c =>
    obtain ⟨⟨st, pc⟩, hwriter, rfl⟩ := Option.map_eq_some_iff.mp h
    refine hsame ?_
    unfold writerStep at hwriter
    split at hwriter
    · cases hwriter; rfl
    · cases hwriter; rfl
    · cases hwriter; rfl
    · split at hwriter <;> cases hwriter; rfl
    · split at hwriter <;> cases hwriter; rfl
    · cases hwriter
  | connect s name =>
    unfold step at h
    dsimp only at h
    split at h
    · cases h; exact le_rfl
    · cases h
  | work frame => cases h; exact le_rfl
  | data k c =>
    unfold step dataStep at h
    dsimp only at h
    split at h
    · cases h
    split at h
    · cases h
    obtain ⟨⟨st, t', es⟩, hstep, rfl⟩ := Option.map_eq_some_iff.mp h
    exact hsame (DataTask.step_now hstep)
  | sweep timeout => cases h; exact le_rfl
  | udp p a =>
    obtain ⟨st, hst, rfl⟩ := Option.map_eq_some_iff.mp h
    refine hsame ?_
    unfold udpStep at hst
    split at hst
    · cases hst
    · cases hst
    · cases hst
    · split at hst
      · obtain ⟨m, -, rfl⟩ := Option.map_eq_some_iff.mp hst
        rfl
      · obtain ⟨m, -, rfl⟩ := Option.map_eq_some_iff.mp hst
        rfl
    · obtain ⟨m, -, rfl⟩ := Option.map_eq_some_iff.mp hst
      rfl

end World

/-! ## Request tasks -/

/-- The task sends requests for this entry until the entry is as old as the timeout, or removes it. -/
def DataTask.Watches (id : WorkId) (e : PendingWork) : DataTask → Prop
  | request id' deadline => id' = id ∧ e.created + fromSecs workConnTimeoutRfrps ≤ deadline
  | asleep id' deadline => id' = id ∧ e.created + fromSecs workConnTimeoutRfrps ≤ deadline
  | giveUp id' => id' = id
  | _ => False

/-- An entry is as old as the timeout. -/
def PendingWork.Due (e : PendingWork) (now : Instant) : Prop :=
  e.created + fromSecs workConnTimeoutRfrps ≤ now

/-- What a section of a data task means for an entry that is there after it: the section has made it and
its task watches it, or it was there, and the task goes on watching it unless it is due. -/
lemma DataTask.watches_of_step {st st' : ServerState} {t t' : DataTask} {c : DataChoice}
    {es : List Event} (h : t.step st c = some (st', t', es)) {id : WorkId} {e : PendingWork}
    (he : st'.pending.get id = some e) :
    t'.Watches id e ∨ st.pending.get id = some e ∧ (t.Watches id e → e.Due st.now) := by
  have hold : t.ids = 0 → st.pending.get id = some e := by
    intro hids
    obtain ⟨s, hmove⟩ := DataTask.step_move h
    exact hmove.entries hids id e he
  cases t with
  | insert s name user id' =>
    cases c with
    | go =>
      cases h
      change (st.pending.insert id' _).get id = some e at he
      rw [HashMap.get_insert] at he
      split at he
      · next hid =>
        cases he
        exact .inl ⟨hid.symm, le_rfl⟩
      · exact .inr ⟨he, fun hw => False.elim hw⟩
    | alive ok => cases h
    | sent ok => cases h
  | request id' deadline =>
    have hst := hold rfl
    cases c with
    | go => cases h
    | alive ok => cases h
    | sent ok =>
      cases ok with
      | false =>
        cases h
        by_cases hid : id' = id
        · exact .inl hid
        · exact .inr ⟨hst, fun hw => absurd hw.1 hid⟩
      | true =>
        cases h
        by_cases hend : st.now ≥ deadline
        · exact .inr ⟨hst, fun hw => hw.2.trans hend⟩
        · rw [if_neg hend]
          by_cases hw : (DataTask.request id' deadline).Watches id e
          · exact .inl hw
          · exact .inr ⟨hst, fun hw' => absurd hw' hw⟩
  | asleep id' deadline =>
    have hst := hold rfl
    cases c with
    | go =>
      cases h
      by_cases hw : (DataTask.asleep id' deadline).Watches id e
      · have hcontains : st.pending.containsKey id' = true := by
          rw [HashMap.containsKey_iff, hw.1]
          exact ⟨e, hst⟩
        rw [if_pos hcontains]
        exact .inl hw
      · exact .inr ⟨hst, fun hw' => absurd hw' hw⟩
    | alive ok => cases h
    | sent ok => cases h
  | giveUp id' =>
    have hst := hold rfl
    refine .inr ⟨hst, fun hw => ?_⟩
    -- the section removes the entry
    obtain rfl : id' = id := hw
    cases c with
    | go =>
      cases h
      have hgone : (st.removePending id').1.pending.get id' = none := by
        unfold removePending
        rw [hst]
        exact HashMap.get_remove_self ..
      have heq : (st.removePending id').1.pending.get id' = some e := he
      rw [hgone] at heq
      cases heq
    | alive ok => cases h
    | sent ok => cases h
  | _ => exact .inr ⟨hold rfl, fun hw => False.elim hw⟩

namespace World

variable {env : Env} {w w' : World}

/-- Every pending entry is due, or its request task is there. -/
def Watched (w : World) : Prop :=
  ∀ id e, w.core.pending.get id = some e → e.Due w.core.now ∨ ∃ t ∈ w.data, t.Watches id e

/-- A new server has no pending entries. -/
lemma Watched.of_new : World.new.Watched := by
  intro id e he
  cases he

/-- Every step keeps the entries that are not due watched by their request tasks. -/
lemma Watched.step (hcoh : w.Coherent) (hw : w.Watched) {a : Action} (h : step env w a = some w') :
    w'.Watched := by
  have hnow := now_le_of_step h
  intro id e he
  -- an entry and a task that were there before
  have hkeep : w.core.pending.get id = some e → (∀ t ∈ w.data, t ∈ w'.data) →
      e.Due w'.core.now ∨ ∃ t ∈ w'.data, t.Watches id e := by
    intro hget hdata
    rcases hw id e hget with hdue | ⟨t, ht, hwatch⟩
    · exact .inl (hdue.trans hnow)
    · exact .inr ⟨t, hdata t ht, hwatch⟩
  cases stream_cases hcoh h with
  | release o es hmove _ hdata =>
    refine hkeep (hmove.pending id e he) fun t ht => ?_
    rcases hdata with hdata | ⟨users, hdata⟩
    · rwa [hdata]
    · rw [hdata]
      exact List.mem_append_left _ ht
  | connect s name _ hcore hdata =>
    rw [hcore] at he
    exact hkeep he fun t ht => by rw [hdata]; exact List.mem_append_left _ ht
  | work frame hcore hdata =>
    rw [hcore] at he
    exact hkeep he fun t ht => by rw [hdata]; exact List.mem_append_left _ ht
  | task k c t t' es hk hstep hdata =>
    have hlt : k < w.data.length := (List.getElem?_eq_some_iff.mp hk).1
    have hmem : t' ∈ w'.data := by
      rw [hdata]
      exact List.mem_set hlt t'
    rcases DataTask.watches_of_step hstep he with hwatch | ⟨hget, hdue⟩
    · exact .inr ⟨t', hmem, hwatch⟩
    rcases hw id e hget with hdue' | ⟨u, hu, hwatch⟩
    · exact .inl (hdue'.trans hnow)
    obtain ⟨j, hj⟩ := List.getElem?_of_mem hu
    by_cases hjk : j = k
    · -- the task of the step is the one that watched the entry
      subst hjk
      rw [hk] at hj
      cases hj
      exact .inl ((hdue hwatch).trans hnow)
    · refine .inr ⟨u, ?_, hwatch⟩
      rw [hdata]
      exact List.mem_of_getElem? (by rw [List.getElem?_set_ne (Ne.symm hjk)]; exact hj)

/-- When its request tasks have ended, an entry does not outlive the sweep. -/
lemma Watched.not_pending_of_sweep (hw : w.Watched) {id : WorkId} {e : PendingWork}
    (hdone : ∀ t ∈ w.data, ¬t.Watches id e)
    (h : World.step env w (.sweep (fromSecs workConnTimeoutRfrps)) = some w') :
    w'.core.pending.get id ≠ some e := by
  intro he
  cases h
  change (w.core.pending.retain _).get id = some e at he
  rw [HashMap.get_retain, Option.filter_eq_some_iff] at he
  obtain ⟨hget, hyoung⟩ := he
  rcases hw id e hget with hdue | ⟨t, ht, hwatch⟩
  · have hexpired : w.core.pendingExpired (fromSecs workConnTimeoutRfrps) e = true :=
      decide_eq_true (Nat.le_sub_of_add_le' hdue)
    rw [hexpired] at hyoung
    cases hyoung
  · exact hdone t ht hwatch

end World

end Rfrp
