import Rfrp.Server.Registry
import Rfrp.Server.System

/-!
# The end of a session that is replaced

A login that replaces a session ends its control loop by `notify_waiters` on its stop signal, which
wakes the `Notified` futures that exist and stores no permit.  The futures of the control loop exist
only while it waits in `select!`.  So the loop ends, and takes no frame after the signal, exactly in the
runs in which no loop comes to `select!` after its signal and no frame is taken while the stop signal is
ready as well (`stops_at_cleanup_iff`); it is enough that whoever is signalled waits in `select!` or has
left the loop.  A session that is replaced while it registers a proxy goes on.
-/

namespace Rfrp

open ServerState

/-- The control loop has ended. -/
def ControlPc.ended : ControlPc → Bool
  | closing => true
  | unregister => true
  | cleaning _ => true
  | returned => true
  | _ => false

/-- A control loop that has ended was that of a registered session. -/
lemma ControlPc.entered_of_ended {p : ControlPc} (h : p.ended = true) : p.entered = true := by
  cases p <;> first | rfl | cases h

/-- The events the end of a control loop is about: the stop signal, and a frame that is handled. -/
def Event.isStop : Event → Bool
  | stopSignalled _ => true
  | handled _ (.msg _) => true
  | _ => false

/-- The stop signal and the handling of frames are up to control tasks. -/
lemma Event.isStop_of_not_control {e : Event} (h : e.isControl = false) : e.isStop = false := by
  cases e <;> first | rfl | cases h

/-! ## The futures of the control loop -/

namespace ServerState

variable (st : ServerState) (s o : SessionRef)

/-- A loop that creates or drops its future does so for its own session. -/
lemma setLoopWaiter_loop (x : Option Bool) :
    ((st.setLoopWaiter o x).sessionAt s).stop.loop =
      if s = o then x else (st.sessionAt s).stop.loop := by
  unfold setLoopWaiter
  rw [modifySession_sessionAt]
  split <;> rfl

/-- `notify_waiters` wakes the future that waits, and leaves no permit where none does. -/
lemma notifyStop_loop :
    ((st.notifyStop o).sessionAt s).stop.loop =
      if s = o then (st.sessionAt s).stop.loop.map fun _ => true
      else (st.sessionAt s).stop.loop := by
  unfold notifyStop
  rw [modifySession_sessionAt]
  split
  · next hs => rw [hs]; rfl
  · rfl

/-- The sections of `cleanup` after its first one leave the futures alone. -/
lemma sameLoops_cleanupStep {c : CleanupPc} (hc : c ≠ .notify) :
    SameLoops st (cleanupStep st o c).1 := by
  cases c with
  | notify => exact absurd rfl hc
  | drainProxies n =>
    exact sameLoops_of_modifySession st o (fun se => { se with proxies := ∅ }) fun _ => rfl
  | removeUdps n =>
    intro t
    obtain ⟨udp, udpAt, h⟩ := st.removeUdps_frame n.udpNames
    change ((st.removeUdps n.udpNames).sessionAt t).stop.loop = _
    rw [h]
  | clearDomains =>
    exact sameLoops_of_modifySession st o (fun se => { se with proxyDomains := ∅ }) fun _ => rfl
  | drainPools =>
    exact sameLoops_of_modifySession st o (fun se => { se with pools := ∅ }) fun _ => rfl
  | _ => exact fun t => rfl

end ServerState

/-- A registration wakes no control loop. -/
lemma RegisterCase.sameLoops {env : Env} {st st' : ServerState} {s : SessionRef} {np : NewProxy}
    {r : RegisterPc} {next : RegisterNext} (h : RegisterCase env st s np r st' next) :
    SameLoops st st' := by
  cases h with
  | opening _ _ _ _ hloops => exact hloops
  | proxyDomains => exact sameLoops_of_modifySession st s _ fun _ => rfl
  | insertProxy =>
    unfold ServerState.insertProxy
    exact sameLoops_of_modifySession st s _ fun _ => rfl
  | _ => exact fun t => rfl

/-- Only the first section of a cleanup signals. -/
lemma cleanupStep_not_stop (st : ServerState) (o : SessionRef) {c : CleanupPc} (hc : c ≠ .notify) :
    ∀ e ∈ (cleanupStep st o c).2.2, e.isStop = false := by
  cases c with
  | notify => exact absurd rfl hc
  | drainPools =>
    intro e he
    obtain ⟨w, -, rfl⟩ := List.mem_map.mp he
    rfl
  | retainPending =>
    intro e he
    obtain ⟨u, -, rfl⟩ := List.mem_map.mp he
    rfl
  | _ => simp [cleanupStep]

namespace ControlTask

variable {env : Env} {st st' : ServerState} {i : SessionRef} {t t' : ControlTask}
  {c : ControlChoice} {es : List Event}

/-- Coming to `select!` makes a new future, which nobody has woken. -/
lemma step_select (h : t.step env st i c = some (st', t', es)) (hpc : t.pc = .select) :
    c = .go ∧ st' = st.setLoopWaiter i (some false) ∧ t'.pc = .waiting ∧ es = [] := by
  unfold step at h
  rw [hpc] at h
  cases c with
  | go => cases h; exact ⟨rfl, rfl, rfl, rfl⟩
  | _ => cases h

/-- Leaving `select!` drops the future; only a frame can lead back to it. -/
lemma step_waiting (h : t.step env st i c = some (st', t', es)) (hpc : t.pc = .waiting) :
    st' = st.setLoopWaiter i none ∧
      ((∃ f, c = .frame f ∧ t'.pc = f.next ∧ es = [.handled i f]) ∨
        (∀ f, c ≠ .frame f) ∧ t'.pc = .closing ∧ es = []) := by
  unfold step at h
  rw [hpc] at h
  cases c with
  | frame f => cases h; exact ⟨rfl, .inl ⟨f, rfl, rfl, rfl⟩⟩
  | disconnected => cases h; exact ⟨rfl, .inr ⟨nofun, rfl, rfl⟩⟩
  | stopped =>
    dsimp only at h
    split at h
    · cases h; exact ⟨rfl, .inr ⟨nofun, rfl, rfl⟩⟩
    · cases h
  | shutdown =>
    dsimp only at h
    split at h
    · cases h; exact ⟨rfl, .inr ⟨nofun, rfl, rfl⟩⟩
    · cases h
  | _ => cases h

/-- A frame is taken in `select!` only. -/
lemma waiting_of_frame {f : InFrame} (h : t.step env st i (.frame f) = some (st', t', es)) :
    t.pc = .waiting := by
  unfold step at h
  cases hpc : t.pc with
  | waiting => rfl
  | _ => rw [hpc] at h; cases h

/-- The other moves of the control loop do not concern its future. -/
lemma step_loopMove (h : t.step env st i c = some (st', t', es)) (hm : LoopMove t.pc t'.pc)
    (hselect : t.pc ≠ .select) (hwaiting : t.pc ≠ .waiting) : st' = st := by
  generalize hp : t.pc = p at hm hselect hwaiting
  generalize t'.pc = p' at hm
  unfold step at h
  rw [hp] at h
  cases hm with
  | greeted =>
    cases c with
    | sent ok =>
      dsimp only at h
      split at h
      · cases h
      · cases h; rfl
    | _ => cases h
  | unsent =>
    cases c with
    | sent ok =>
      dsimp only at h
      split at h
      · cases h
      · cases h; rfl
    | _ => cases h
  | enter => exact absurd rfl hselect
  | leave => exact absurd rfl hwaiting
  | failed np error =>
    cases c with
    | sent ok =>
      cases ok with
      | false => cases h; rfl
      | true =>
        dsimp only at h
        split at h
        · cases h; rfl
        · cases h
    | _ => cases h
  | closed =>
    cases c with
    | go => cases h; rfl
    | _ => cases h

end ControlTask

namespace World

variable {env : Env} {w w' : World}

/-! ## What a step does to the stop signals -/

/-- A step as the stop signals see it. -/
inductive StopCase (w w' : World) (a : Action) : Prop
  /-- Nobody comes to `select!`, a future is dropped only by the loop that leaves. -/
  | quiet (hpc : ∀ s, (w'.control s).pc = .waiting → (w.control s).pc = .waiting)
      (hended : ∀ s, (w.control s).pc.ended = true → (w'.control s).pc.ended = true)
      (hleave : ∀ s, (w.control s).pc = .waiting →
        (w'.control s).pc = .waiting ∨ (w'.control s).pc.ended = true)
      (hloop : ∀ s, (w'.core.sessionAt s).stop.loop = (w.core.sessionAt s).stop.loop ∨
        (w'.core.sessionAt s).stop.loop = none ∧ (w'.control s).pc ≠ .waiting)
      (es : List Event) (hlog : w'.log = w.log ++ es) (hes : ∀ e ∈ es, e.isStop = false)
      (hframe : ∀ s m, a ≠ .control s (.frame (.msg m)))
      (henter : ∀ s, a = .control s .go → (w.control s).pc ≠ .select ∧
        ∀ o, (w.control s).pc.cleans s ≠ some (o, .notify))
  /-- A control loop comes to `select!`. -/
  | enter (i : SessionRef) (ha : a = .control i .go) (hpc : (w.control i).pc = .select)
      (hpc' : (w'.control i).pc = .waiting)
      (hother : ∀ j ≠ i, w'.control j = w.control j)
      (hcore : w'.core = w.core.setLoopWaiter i (some false)) (hlog : w'.log = w.log)
  /-- A control loop handles a frame. -/
  | frame (i : SessionRef) (m : Message) (ha : a = .control i (.frame (.msg m)))
      (hpc : (w.control i).pc = .waiting) (hpc' : (w'.control i).pc = (InFrame.msg m).next)
      (hother : ∀ j ≠ i, w'.control j = w.control j)
      (hcore : w'.core = w.core.setLoopWaiter i none)
      (hlog : w'.log = w.log ++ [.handled i (.msg m)])
  /-- A cleanup signals the session it cleans up. -/
  | signal (k o : SessionRef) (ha : a = .control k .go)
      (hpc : (w.control k).pc.cleans k = some (o, .notify))
      (hwaiting : ∀ s, (w'.control s).pc = .waiting ↔ (w.control s).pc = .waiting)
      (hended : ∀ s, (w'.control s).pc.ended = (w.control s).pc.ended)
      (hcore : w'.core = w.core.notifyStop o) (hlog : w'.log = w.log ++ [.stopSignalled o])

/-- A section of a control task that neither comes to `select!`, nor handles a frame, nor signals. -/
lemma StopCase.quiet_of_control {i : SessionRef} {c : ControlChoice} {es : List Event}
    (hother : ∀ j ≠ i, w'.control j = w.control j) (hlog : w'.log = w.log ++ es)
    (hpc' : (w'.control i).pc ≠ .waiting)
    (hended : (w.control i).pc.ended = true → (w'.control i).pc.ended = true)
    (hleave : (w.control i).pc = .waiting → (w'.control i).pc.ended = true)
    (hloop : ∀ s, (w'.core.sessionAt s).stop.loop = (w.core.sessionAt s).stop.loop ∨
      s = i ∧ (w'.core.sessionAt s).stop.loop = none)
    (hes : ∀ e ∈ es, e.isStop = false) (hframe : ∀ m, c ≠ .frame (.msg m))
    (henter : c = .go → (w.control i).pc ≠ .select ∧
      ∀ o, (w.control i).pc.cleans i ≠ some (o, .notify)) :
    StopCase w w' (.control i c) := by
  refine .quiet (fun s hs => ?_) (fun s hs => ?_) (fun s hs => ?_) (fun s => ?_) es hlog hes
    (fun s m heq => ?_) fun s heq => ?_
  · by_cases hsi : s = i
    · rw [hsi] at hs; exact absurd hs hpc'
    · rwa [hother s hsi] at hs
  · by_cases hsi : s = i
    · rw [hsi] at hs ⊢; exact hended hs
    · rwa [hother s hsi]
  · by_cases hsi : s = i
    · rw [hsi] at hs ⊢; exact .inr (hleave hs)
    · rw [hother s hsi]; exact .inl hs
  · rcases hloop s with heq | ⟨rfl, hnone⟩
    · exact .inl heq
    · exact .inr ⟨hnone, hpc'⟩
  · cases heq; exact hframe m rfl
  · cases heq; exact henter rfl

/-- After a frame a control loop is no longer in `select!`. -/
lemma InFrame.next_ne_waiting (f : InFrame) : f.next ≠ .waiting := by
  unfold InFrame.next
  split
  · split <;> nofun
  all_goals nofun

/-- A frame that is no message, an error and the end of the stream end the control loop. -/
lemma InFrame.next_of_not_msg {f : InFrame} (hf : ∀ m, f ≠ .msg m) : f.next = .closing := by
  cases f with
  | msg m => exact absurd rfl (hf m)
  | _ => rfl

/-- What each step does to the stop signals. -/
theorem stop_cases (hw : w.Coherent) {a : Action} (h : step env w a = some w') :
    StopCase w w' a := by
  cases step_cases h with
  | other _ _ hpc _ _ hloops es hlog hes ha =>
    exact .quiet (fun s hs => by rwa [hpc] at hs) (fun s hs => by rwa [hpc])
      (fun s hs => .inl (by rwa [hpc])) (fun s => .inl (hloops s)) es hlog
      (fun e he => Event.isStop_of_not_control (hes e he)) (fun s m => ha s _)
      fun s heq => absurd heq (ha s _)
  | login first ip hcount hpc hother _ hst hlog =>
    have hnot : (w.control w.controlCount).pc.entered = false :=
      Bool.eq_false_iff.mpr fun he => Nat.lt_irrefl _ (hw.bound _ he)
    have hold : ∀ s, (w.control s).pc.entered = true → w'.control s = w.control s := by
      intro s hs
      refine hother s ?_
      rintro rfl
      rw [hnot] at hs
      cases hs
    refine .quiet (fun s hs => ?_) (fun s hs => ?_) (fun s hs => ?_) (fun s => .inl (by rw [hst]))
      [] (by simp [hlog]) (by simp) nofun nofun
    · by_cases hsc : s = w.controlCount
      · rw [hsc, hpc] at hs; cases hs
      · rwa [hother s hsc] at hs
    · rwa [hold s (ControlPc.entered_of_ended hs)]
    · rw [hold s (by rw [hs]; rfl)]
      exact .inl hs
  | control i c es hlt hcount hcase hother _ _ hlog =>
    obtain ⟨es', hstep, hlog'⟩ := task_of_controlStep h
    obtain rfl : es = es' := List.append_cancel_left (hlog.symm.trans hlog')
    by_cases hselect : (w.control i).pc = .select
    · obtain ⟨rfl, hcore, hpc', rfl⟩ := ControlTask.step_select hstep hselect
      exact .enter i rfl hselect hpc' hother hcore (by rw [hlog, List.append_nil])
    by_cases hwaiting : (w.control i).pc = .waiting
    · obtain ⟨hcore, hnext⟩ := ControlTask.step_waiting hstep hwaiting
      have hloop : ∀ s, (w'.core.sessionAt s).stop.loop = (w.core.sessionAt s).stop.loop ∨
          s = i ∧ (w'.core.sessionAt s).stop.loop = none := by
        intro s
        rw [hcore, setLoopWaiter_loop]
        split
        · next hs => exact .inr ⟨hs, rfl⟩
        · exact .inl rfl
      rcases hnext with ⟨f, rfl, hpc', rfl⟩ | ⟨hc, hpc', rfl⟩
      · by_cases hf : ∃ m, f = .msg m
        · obtain ⟨m, rfl⟩ := hf
          exact .frame i m rfl hwaiting hpc' hother hcore hlog
        · have hf' : ∀ m, f ≠ .msg m := fun m hm => hf ⟨m, hm⟩
          rw [InFrame.next_of_not_msg hf'] at hpc'
          refine .quiet_of_control hother hlog (by rw [hpc']; nofun) (fun _ => by rw [hpc']; rfl)
            (fun _ => by rw [hpc']; rfl) hloop (fun e he => ?_) (fun m hm => ?_) nofun
          · cases List.mem_singleton.mp he
            cases f with
            | msg m => exact absurd rfl (hf' m)
            | _ => rfl
          · cases hm; exact hf' m rfl
      · refine .quiet_of_control hother hlog (by rw [hpc']; nofun) (fun _ => by rw [hpc']; rfl)
          (fun _ => by rw [hpc']; rfl) hloop (by simp) (fun m => hc _) fun _ => ?_
        rw [hwaiting]
        exact ⟨nofun, nofun⟩
    -- the task is not at `select!`: its own future does not change
    generalize hp : (w.control i).pc = p at *
    generalize hp' : (w'.control i).pc = p' at hcase
    generalize hcore : w'.core = st' at hcase
    have hquiet : SameLoops w.core st' → p' ≠ .waiting → (p.ended = true → p'.ended = true) →
        (∀ e ∈ es, e.isStop = false) → (∀ o, p.cleans i ≠ some (o, .notify)) → StopCase w w' (.control i c) := by
      intro hloops hne hended hes hclean
      refine .quiet_of_control hother hlog (by rwa [hp']) (by rwa [hp, hp'])
        (by rw [hp]; exact fun hw' => absurd hw' hwaiting)
        (fun s => .inl (by rw [hcore]; exact hloops s)) hes (fun m hc => ?_) fun _ => ?_
      · rw [hc] at hstep
        exact hwaiting (hp ▸ ControlTask.waiting_of_frame hstep)
      · rw [hp]
        exact ⟨hselect, hclean⟩
    cases hcase with
    | login _ _ _ f he he' =>
      refine hquiet (fun _ => rfl) (fun hw' => ?_) (fun hend => ?_) (by simp) fun o hc => ?_
      · rw [hw'] at he'; cases he'
      · rw [ControlPc.entered_of_ended hend] at he; cases he
      · rw [ControlPc.entered_of_cleans hc] at he; cases he
    | swap l ip sid tok =>
      have hafter : (ControlPc.afterSwap (w.core.sessions.get l.runId)) ≠ .waiting := by
        cases w.core.sessions.get l.runId <;> nofun
      refine .quiet_of_control hother hlog (by rwa [hp']) (by rw [hp]; nofun) (by rw [hp]; nofun)
        (fun s => ?_) (by simp [Event.isStop]) nofun nofun
      by_cases hs : s = i
      · subst hs
        rw [hcore, (swapSession_spec ..).2.1]
        exact .inr ⟨rfl, rfl⟩
      · rw [hcore, (swapSession_spec ..).2.2.1 s hs]
        exact .inl rfl
    | cleanup _ o c hc =>
      have hphase : (p.cleanupNext (cleanupStep w.core o c).2.1) ≠ .waiting ∧
          (p.cleanupNext (cleanupStep w.core o c).2.1).ended = p.ended := by
        cases p with
        | replacing => cases (cleanupStep w.core o c).2.1 <;> exact ⟨nofun, rfl⟩
        | cleaning => cases (cleanupStep w.core o c).2.1 <;> exact ⟨nofun, rfl⟩
        | _ => cases hc
      by_cases hnotify : c = .notify
      · subst hnotify
        refine .signal i o rfl (by rw [hp]; exact hc) (fun s => ?_) (fun s => ?_) hcore hlog
        · by_cases hs : s = i
          · rw [hs, hp, hp']
            exact ⟨fun hw' => absurd hw' hphase.1, fun hw' => absurd hw' hwaiting⟩
          · rw [hother s hs]
        · by_cases hs : s = i
          · rw [hs, hp, hp']; exact hphase.2
          · rw [hother s hs]
      · refine hquiet (sameLoops_cleanupStep w.core o hnotify) hphase.1
          (fun hend => hphase.2.trans hend) (cleanupStep_not_stop w.core o hnotify) ?_
        intro o' hc'
        rw [hc] at hc'
        cases hc'
        exact hnotify rfl
    | loop _ _ _ _ hmove hst =>
      have hsame : st' = w.core := by
        rw [← hcore]
        exact ControlTask.step_loopMove hstep (by rw [hp, hp']; exact hmove)
          (by rwa [hp]) (by rwa [hp])
      refine hquiet (fun s => by rw [hsame]) (fun hw' => ?_) (fun hend => ?_) (by simp)
        fun o hc => ?_
      · rw [hw'] at hmove; cases hmove; exact hselect rfl
      · cases hmove <;> first | rfl | cases hend
      · cases hmove <;> cases hc
    | frame f => exact absurd rfl hwaiting
    | register np outcome r r' _ hreg =>
      exact hquiet hreg.sameLoops nofun nofun (by simp) nofun
    | registerRefused => exact hquiet (fun _ => rfl) nofun nofun (by simp) nofun
    | registerOk => exact hquiet (fun _ => rfl) nofun nofun (by simp [Event.isStop]) nofun
    | responded => exact hquiet (fun _ => rfl) nofun nofun (by simp [Event.isStop]) nofun
    | unregister =>
      obtain ⟨sessions, hframe⟩ := w.core.unregisterSession_frame i
      exact hquiet (fun s => by rw [hframe]) nofun (fun _ => rfl) (by simp [Event.isStop]) nofun

/-! ## The property and the condition -/

/-- After `cleanup` has signalled a session, its control loop handles no frame, and where it waits in
`select!` it has been woken. -/
structure StopsAtCleanup (w : World) : Prop where
  handles : w.log.Pairwise fun e e' => ∀ o m, e = .stopSignalled o → e' ≠ .handled o (.msg m)
  woken : ∀ o, .stopSignalled o ∈ w.log → (w.control o).pc = .waiting →
    (w.core.sessionAt o).stop.loop = some true

/-- A control loop comes to `select!` only before its session is signalled, and takes a frame only while
its stop signal is not ready. -/
def StopSeen (w : World) : Action → Prop
  | .control o .go => (w.control o).pc = .select → .stopSignalled o ∉ w.log
  | .control o (.frame (.msg _)) => (w.core.sessionAt o).stop.loop ≠ some true
  | _ => True

/-- A session is signalled only while its control loop waits in `select!` or after it has ended, and
the loop takes a frame only while its stop signal is not ready. -/
def SignalsWaiting (w : World) : Action → Prop
  | .control k .go => ∀ o, (w.control k).pc.cleans k = some (o, .notify) →
    (w.control o).pc = .waiting ∨ (w.control o).pc.ended = true
  | .control o (.frame (.msg _)) => (w.core.sessionAt o).stop.loop ≠ some true
  | _ => True

/-- A control loop has a future while it waits in `select!`, and a future that was woken was
signalled. -/
structure StopInv (w : World) : Prop where
  future : ∀ o, (w.control o).pc = .waiting → (w.core.sessionAt o).stop.loop ≠ none
  signalled : ∀ o, (w.core.sessionAt o).stop.loop = some true → .stopSignalled o ∈ w.log

/-- On a new server no loop waits. -/
lemma StopInv.of_new : World.new.StopInv where
  future o h := by cases h
  signalled o h := by cases h

/-- On a new server nothing has been signalled. -/
lemma StopsAtCleanup.of_new : World.new.StopsAtCleanup where
  handles := .nil
  woken o h := by cases h

/-- Every step keeps the futures of waiting loops, and wakes only those that are signalled. -/
lemma StopInv.step (hi : w.StopInv) {a : Action} (h : StopCase w w' a) : w'.StopInv := by
  cases h with
  | quiet hpc _ _ hloop es hlog =>
    refine ⟨fun o ho => ?_, fun o ho => ?_⟩
    · rcases hloop o with heq | ⟨-, hne⟩
      · rw [heq]; exact hi.future o (hpc o ho)
      · exact absurd ho hne
    · rw [hlog]
      rcases hloop o with heq | ⟨hnone, -⟩
      · exact List.mem_append_left _ (hi.signalled o (heq ▸ ho))
      · rw [hnone] at ho; cases ho
  | enter i _ _ _ hother hcore hlog =>
    refine ⟨fun o ho => ?_, fun o ho => ?_⟩
    · rw [hcore, setLoopWaiter_loop]
      split
      · nofun
      · next hoi => exact hi.future o (by rwa [hother o hoi] at ho)
    · rw [hcore, setLoopWaiter_loop] at ho
      rw [hlog]
      split at ho
      · cases ho
      · exact hi.signalled o ho
  | frame i m _ _ hpc' hother hcore hlog =>
    refine ⟨fun o ho => ?_, fun o ho => ?_⟩
    · by_cases hoi : o = i
      · rw [hoi, hpc'] at ho
        exact absurd ho (InFrame.next_ne_waiting _)
      · rw [hcore, setLoopWaiter_loop, if_neg hoi]
        exact hi.future o (by rwa [hother o hoi] at ho)
    · rw [hcore, setLoopWaiter_loop] at ho
      split at ho
      · cases ho
      · rw [hlog]; exact List.mem_append_left _ (hi.signalled o ho)
  | signal k i _ _ hwaiting _ hcore hlog =>
    refine ⟨fun o ho => ?_, fun o ho => ?_⟩
    · have hold := hi.future o ((hwaiting o).mp ho)
      rw [hcore, notifyStop_loop]
      split
      · simpa using hold
      · exact hold
    · rw [hlog]
      by_cases hoi : o = i
      · simp [hoi]
      · rw [hcore, notifyStop_loop, if_neg hoi] at ho
        exact List.mem_append_left _ (hi.signalled o ho)

/-- A quiet event after the others handles no frame. -/
lemma StopsAtCleanup.append (hP : w.StopsAtCleanup) {es : List Event}
    (hes : ∀ e ∈ es, ∀ o m, e = .handled o (.msg m) → .stopSignalled o ∉ w.log)
    (hone : es.Pairwise fun e e' => ∀ o m, e = .stopSignalled o → e' ≠ .handled o (.msg m)) :
    (w.log ++ es).Pairwise fun e e' =>
      ∀ o m, e = .stopSignalled o → e' ≠ .handled o (.msg m) := by
  refine List.pairwise_append.mpr ⟨hP.handles, hone, ?_⟩
  rintro e he e' he' o m rfl heq
  exact hes e' he' o m heq he

/-- One step: the property goes on exactly when the step meets the condition. -/
lemma stopsAtCleanup_step (hi : w.StopInv) (hP : w.StopsAtCleanup) {a : Action}
    (h : StopCase w w' a) : w'.StopsAtCleanup ↔ StopSeen w a := by
  cases h with
  | quiet hpc _ _ hloop es hlog hes hframe henter =>
    have hseen : StopSeen w a := by
      unfold StopSeen
      split
      · next o => exact fun hs => absurd hs (henter o rfl).1
      · next o m => exact absurd rfl (hframe o m)
      · trivial
    have hnone : ∀ o, .stopSignalled o ∈ w'.log ↔ .stopSignalled o ∈ w.log := by
      intro o
      rw [hlog, List.mem_append, or_iff_left fun he => by cases hes _ he]
    refine iff_of_true ⟨?_, fun o hs ho => ?_⟩ hseen
    · rw [hlog]
      refine hP.append (fun e he o m heq => ?_) (List.Pairwise.imp_of_mem ?_
        (List.pairwise_of_forall fun _ _ => trivial))
      · rw [heq] at he; cases hes _ he
      · rintro e e' he - - o m rfl
        cases hes _ he
    · rcases hloop o with heq | ⟨-, hne⟩
      · rw [heq]; exact hP.woken o ((hnone o).mp hs) (hpc o ho)
      · exact absurd ho hne
  | enter i ha hpc hpc' hother hcore hlog =>
    subst ha
    refine ⟨fun hP' _ hs => ?_, fun hC => ⟨hlog ▸ hP.handles, fun o hs ho => ?_⟩⟩
    · have hwoken := hP'.woken i (hlog ▸ hs) hpc'
      rw [hcore, setLoopWaiter_loop, if_pos rfl] at hwoken
      cases hwoken
    · have hoi : o ≠ i := fun hoi => hC hpc (by rw [← hoi, ← hlog]; exact hs)
      rw [hother o hoi] at ho
      rw [hcore, setLoopWaiter_loop, if_neg hoi]
      exact hP.woken o (hlog ▸ hs) ho
  | frame i m ha hpc hpc' hother hcore hlog =>
    subst ha
    constructor
    · intro hP' hloop
      have hlog' := hP'.handles
      rw [hlog, List.pairwise_append] at hlog'
      exact hlog'.2.2 _ (hi.signalled i hloop) _ List.mem_cons_self i m rfl rfl
    · intro hC
      have hnot : .stopSignalled i ∉ w.log := fun hs => hC (hP.woken i hs hpc)
      refine ⟨?_, fun o hs ho => ?_⟩
      · rw [hlog]
        refine hP.append (fun e he o m' heq => ?_) (List.pairwise_singleton ..)
        rw [List.mem_singleton.mp he] at heq
        cases heq
        exact hnot
      · rw [hlog, List.mem_append] at hs
        have hs' : .stopSignalled o ∈ w.log := hs.resolve_right (by simp)
        have hoi : o ≠ i := fun hoi => hnot (hoi ▸ hs')
        rw [hother o hoi] at ho
        rw [hcore, setLoopWaiter_loop, if_neg hoi]
        exact hP.woken o hs' ho
  | signal k i ha hpc hwaiting _ hcore hlog =>
    subst ha
    have hseen : StopSeen w (.control k .go) := fun hs => by rw [hs] at hpc; cases hpc
    refine iff_of_true ⟨?_, fun o hs ho => ?_⟩ hseen
    · rw [hlog]
      refine hP.append (fun e he o m heq => ?_) (List.pairwise_singleton ..)
      rw [List.mem_singleton.mp he] at heq
      cases heq
    · have hold := (hwaiting o).mp ho
      rw [hcore, notifyStop_loop]
      split
      · next hoi =>
        -- the loop that waits has a future, and this wakes it
        obtain ⟨x, hx⟩ := Option.ne_none_iff_exists'.mp (hi.future o hold)
        rw [hx]
        rfl
      · next hoi =>
        rw [hlog, List.mem_append] at hs
        exact hP.woken o (hs.resolve_right (by simpa using hoi)) hold

/-- The control loop of a session that was signalled waits in `select!` or has ended. -/
def SignalledWaiting (w : World) : Prop :=
  ∀ o, .stopSignalled o ∈ w.log → (w.control o).pc = .waiting ∨ (w.control o).pc.ended = true

/-- If every session that is signalled waits in `select!` or has left the loop, no loop comes to
`select!` after its signal. -/
lemma SignalledWaiting.step (hended : w.SignalledWaiting) {a : Action} (h : StopCase w w' a)
    (hP : w.StopsAtCleanup) (hC : SignalsWaiting w a) : StopSeen w a ∧ w'.SignalledWaiting := by
  have hselect : ∀ o, .stopSignalled o ∈ w.log → (w.control o).pc ≠ .select := by
    intro o hs hpc
    have hor := hended o hs
    rw [hpc] at hor
    rcases hor with hor | hor <;> cases hor
  have hseen : StopSeen w a := by
    unfold StopSeen
    split
    · next o => exact fun hpc hs => hselect o hs hpc
    · next o m => exact hC
    · trivial
  refine ⟨hseen, fun o hs => ?_⟩
  cases h with
  | quiet _ hend hleave _ es hlog hes =>
    rw [hlog, List.mem_append] at hs
    rcases hended o (hs.resolve_right fun he => by cases hes _ he) with hpc | hpc
    · exact hleave o hpc
    · exact .inr (hend o hpc)
  | enter i ha hpc _ hother _ hlog =>
    rw [hlog] at hs
    rw [hother o fun hoi => hselect o hs (hoi ▸ hpc)]
    exact hended o hs
  | frame i m ha hpc _ hother _ hlog =>
    subst ha
    rw [hlog, List.mem_append] at hs
    have hs' : .stopSignalled o ∈ w.log := hs.resolve_right (by simp)
    rw [hother o]
    · exact hended o hs'
    · rintro rfl
      exact hC (hP.woken o hs' hpc)
  | signal k i ha hpc hwaiting hend _ hlog =>
    subst ha
    rw [hlog, List.mem_append] at hs
    rw [hwaiting, hend]
    rcases hs with hs | hs
    · exact hended o hs
    · cases List.mem_singleton.mp hs
      exact hC o hpc

/-! ## The main result -/

/-- A control loop ends at its cleanup exactly in the runs in which it comes to `select!` before the
signal only, and takes no frame while the signal is ready; it does so where every session that is
signalled waits in `select!` or has left its loop. -/
theorem stops_at_cleanup_iff (env : Env) (as : List Action) :
    (Exec.Always (step env) StopsAtCleanup .new as ↔ Exec.Guarded (step env) StopSeen .new as) ∧
      (Exec.Guarded (step env) SignalsWaiting .new as →
        Exec.Always (step env) StopsAtCleanup .new as) := by
  constructor
  · refine Exec.always_iff_guarded (I := fun w => w.Coherent ∧ w.StopInv) ?_ ⟨.of_new, .of_new⟩ .of_new
    rintro w a w' ⟨hw, hi⟩ hP h
    have hcase := stop_cases hw h
    exact ⟨stopsAtCleanup_step hi hP hcase, fun _ => ⟨hw.step h, hi.step hcase⟩⟩
  · intro hC
    refine Exec.always_of_guarded (I := fun w =>
      w.Coherent ∧ w.StopInv ∧ w.StopsAtCleanup ∧ w.SignalledWaiting) ?_ (fun w hw => hw.2.2.1)
      ⟨.of_new, .of_new, .of_new, fun o ho => by cases ho⟩ hC
    rintro w a w' hC ⟨hw, hi, hP, hended⟩ h
    have hcase := stop_cases hw h
    obtain ⟨hseen, hended'⟩ := hended.step hcase hP hC
    exact ⟨hw.step h, hi.step hcase, (stopsAtCleanup_step hi hP hcase).mpr hseen, hended'⟩

/-- A client is replaced while its first proxy is being registered; then its loop goes on to a second
one. -/
def replacedBusyRun : List Action :=
  loginSteps 0 "7f6b5e0e-2f3c-4c9a-9d53-0a4d5f1c0001" "a1f0a3c6-55a1-4b0e-8a3b-2f6d0c9e0001"
    "c2d1b4d7-66b2-4c1f-9b4c-3f7e1dad0001" 0 ++
  [newProxyStep 0 (System.httpProxy "web-a" "a.example.com")] ++
  loginSteps 1 "7f6b5e0e-2f3c-4c9a-9d53-0a4d5f1c0001" "a1f0a3c6-55a1-4b0e-8a3b-2f6d0c9e0002"
    "c2d1b4d7-66b2-4c1f-9b4c-3f7e1dad0002" 10 ++
  registerSteps 0 9 ++
  [.control 0 (.sent true), .control 0 .go,
    newProxyStep 0 (System.httpProxy "web-b" "b.example.com")] ++
  registerSteps 0 9

/-- The session that was replaced and cleaned up handles another frame and registers its proxy, whose
name now leads to the session that has replaced it. -/
theorem replaced_session_lives_on :
    (∃ w, Exec.run (step System.sampleEnv) .new replacedBusyRun = some w ∧
      ¬w.core.Live 0 ∧ w.core.Live 1 ∧
      w.log[3]? = some (.stopSignalled 0) ∧
      w.log[6]? = some (.handled 0 (.msg (.newProxy (System.httpProxy "web-b" "b.example.com")))) ∧
      w.core.sessionForProxy "web-b" = some 1 ∧ ¬w.core.Holds 1 "web-b") ∧
    ¬Exec.Always (step System.sampleEnv) StopsAtCleanup .new replacedBusyRun := by
  have hobs : (Exec.run (step System.sampleEnv) .new replacedBusyRun).map (fun w =>
      (decide (¬w.core.Live 0 ∧ w.core.Live 1),
        decide (w.log[3]? = some (.stopSignalled 0)),
        decide (w.log[6]? =
          some (.handled 0 (.msg (.newProxy (System.httpProxy "web-b" "b.example.com"))))),
        w.core.sessionForProxy "web-b", ((w.core.sessionAt 1).proxies.get "web-b").isNone)) =
      some (true, true, true, some 1, true) := by
    decide
  obtain ⟨w, hrun, hw⟩ := Option.map_eq_some_iff.mp hobs
  simp only [Prod.mk.injEq, decide_eq_true_eq, Option.isNone_iff_eq_none] at hw
  obtain ⟨⟨h0, h1⟩, hsignalled, hhandled, hfor, hnone⟩ := hw
  refine ⟨⟨w, hrun, h0, h1, hsignalled, hhandled, hfor, ?_⟩, Exec.not_always_of_run hrun ?_⟩
  · rintro ⟨e, he⟩
    rw [hnone] at he
    cases he
  · intro hP
    obtain ⟨h3, he3⟩ := List.getElem?_eq_some_iff.mp hsignalled
    obtain ⟨h6, he6⟩ := List.getElem?_eq_some_iff.mp hhandled
    exact List.pairwise_iff_getElem.mp hP.handles 3 6 h3 h6 (by decide) 0 _ he3 he6

end World

end Rfrp
