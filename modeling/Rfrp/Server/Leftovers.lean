import Rfrp.Server.CleanupTables
import Rfrp.Server.System
import Rfrp.Server.Watched

/-!
# What a teardown leaves behind

A session is torn down by its own control task and, when a login replaces it, by the task of that login
as well.  Tasks that hold the session go on meanwhile: accept loops that are not aborted yet and requests
that have resolved it dispatch user connections, and work connections that have resolved it are handed
over.  When all of them have ended and the pending table was swept, the tables of the server should hold
nothing of the session.

`tornDown_of_timely` proves this for the runs in which every late write comes in time: a user connection
is counted before the cleanups have removed the statistics of its proxy, a work connection is pooled
before they have emptied the pools, and the names are drained while a cleanup that still has to remove
the statistics knows them.
-/

namespace Rfrp

open ServerState

/-! ## How far a teardown is -/

/-- The task is handling a `NewProxy` request. -/
def ControlPc.isRegistering : ControlPc → Bool
  | registering .. => true
  | _ => false

/-- The task is in its control loop, or on the way into it or out of it. -/
def ControlPc.inLoop : ControlPc → Bool
  | loginResp => true
  | select => true
  | waiting => true
  | responding _ _ => true
  | closing => true
  | unregister => true
  | _ => false

/-- Moves of the control loop stay in the control loop. -/
lemma LoopMove.inLoop {p p' : ControlPc} (h : LoopMove p p') :
    p.inLoop = true ∧ p'.inLoop = true := by
  cases h <;> exact ⟨rfl, rfl⟩

/-- Where control task `i` stands in its cleanup of session `o`; the own task of a session cleans it up
when it ends. -/
def ControlPc.ahead (o i : SessionRef) (p : ControlPc) : Option CleanupPc :=
  match p.cleans i with
  | some (o', c) => if o' = o then some c else if i = o then some .notify else none
  | none => if i = o ∧ p ≠ .returned then some .notify else none

namespace ControlPc

variable {o i : SessionRef} {p : ControlPc}

/-- A task that is in a cleanup of the session stands where that cleanup stands. -/
lemma ahead_of_cleans {c : CleanupPc} (h : p.cleans i = some (o, c)) : p.ahead o i = some c := by
  unfold ahead
  rw [h]
  exact if_pos rfl

/-- The own task has its cleanup ahead of it until it is in it or has returned. -/
lemma ahead_self (h : ∀ c, p.cleans o ≠ some (o, c)) (hp : p ≠ .returned) :
    p.ahead o o = some .notify := by
  unfold ahead
  split
  · next o' c hc =>
    have ho : o' ≠ o := by
      rintro rfl
      exact h c hc
    rw [if_neg ho, if_pos rfl]
  · rw [if_pos ⟨rfl, hp⟩]

/-- A task of another session that does not clean this one up has no cleanup of it ahead. -/
lemma ahead_of_ne (h : ∀ c, p.cleans i ≠ some (o, c)) (hi : i ≠ o) : p.ahead o i = none := by
  unfold ahead
  split
  · next o' c hc =>
    have ho : o' ≠ o := by
      rintro rfl
      exact h c hc
    rw [if_neg ho, if_neg hi]
  · rw [if_neg fun h => hi h.1]

/-- The own task of a session that is in its loop has the whole cleanup ahead of it. -/
lemma of_inLoop (h : p.inLoop = true) (i : SessionRef) :
    p.cleans i = none ∧ p.ahead i i = some .notify ∧ p.isRegistering = false := by
  have hnone : p.cleans i = none := by cases p <;> first | rfl | cases h
  refine ⟨hnone, ahead_self (fun c hc => ?_) ?_, ?_⟩
  · rw [hnone] at hc
    cases hc
  · rintro rfl
    cases h
  · cases p <;> first | rfl | cases h

/-- After a section of a cleanup the rest of it is ahead. -/
lemma ahead_cleanupNext {c : CleanupPc} (h : p.cleans i = some (o, c)) (hself : p ≠ replacing i c)
    (next : Option CleanupPc) :
    (p.cleanupNext next).ahead o i = next ∧ (p.cleanupNext next).isRegistering = false := by
  cases p with
  | replacing old c' =>
    cases h
    have hne : i ≠ o := by
      rintro rfl
      exact hself rfl
    cases next with
    | some c => exact ⟨ahead_of_cleans rfl, rfl⟩
    | none => exact ⟨ahead_of_ne (fun c hc => by cases hc) hne, rfl⟩
  | cleaning c' =>
    cases h
    cases next with
    | some c => exact ⟨ahead_of_cleans rfl, rfl⟩
    | none => exact ⟨if_neg fun h => h.2 rfl, rfl⟩
  | _ => cases h

/-- A session that is cleaning up for the one it replaces has its own cleanup ahead of it. -/
lemma ahead_replacing {old : SessionRef} (hne : old ≠ o) (c : CleanupPc) (next : Option CleanupPc) :
    (replacing old c).ahead o o = some .notify ∧
      ((replacing old c).cleanupNext next).ahead o o = some .notify := by
  have hold : ∀ c, (replacing old c).ahead o o = some .notify := by
    intro c
    refine ahead_self (fun c' hc' => ?_) (by simp)
    cases hc'
    exact hne rfl
  refine ⟨hold c, ?_⟩
  cases next with
  | some c => exact hold c
  | none => exact (of_inLoop rfl o).2.1

end ControlPc

namespace World

variable {env : Env} {w w' : World} {o : SessionRef}

/-- Where control task `i` stands in its cleanup of session `o`. -/
def ahead (w : World) (o i : SessionRef) : Option CleanupPc := (w.control i).pc.ahead o i

/-- No login replaces the session that it has created itself. -/
def NoSelf (w : World) : Prop := ∀ i c, (w.control i).pc ≠ .replacing i c

/-- A new server has no logins. -/
lemma NoSelf.of_new : World.new.NoSelf := by
  intro i c h
  cases h

/-- No step makes a login replace the session it has created itself. -/
lemma NoSelf.step (hcoh : w.Coherent) (hw : w.NoSelf) {a : Action} (h : step env w a = some w') :
    w'.NoSelf := by
  intro i c hi
  cases registry_cases hcoh.bound h with
  | same _ _ _ hreplacing =>
    obtain ⟨c', hc'⟩ := hreplacing i i c hi
    exact hw i c' hc'
  | swap j l ip sid tok hlt ha hpc hcore hpc' hother =>
    by_cases hij : i = j
    · subst hij
      rw [hpc'] at hi
      cases hget : w.core.sessions.get l.runId with
      | none => rw [hget] at hi; cases hi
      | some old =>
        rw [hget] at hi
        cases hi
        exact (phases_of_swap hpc hpc' hother).1 (hcoh.registry _ i hget).1
    · rw [hother i hij] at hi
      exact hw i c hi
  | unregister j ha hpc hcore hpc' hother =>
    by_cases hij : i = j
    · subst hij
      rw [hpc'] at hi
      cases hi
    · rw [hother i hij] at hi
      exact hw i c hi

/-! ## The steps of a teardown -/

end World

/-- The session a user connection is dispatched for. -/
def DataTask.dispatches : DataTask → Option SessionRef
  | accept s _ _ => some s
  | countStats s _ _ => some s
  | pop s _ _ => some s
  | probe s _ _ _ => some s
  | alloc s _ _ => some s
  | insert s _ _ _ => some s
  | _ => none

/-- A control task is given a `NewProxy` request. -/
def ControlChoice.isNewProxy : ControlChoice → Bool
  | frame (.msg (.newProxy _)) => true
  | _ => false

/-- After a frame other than `NewProxy` the control task is still in its loop. -/
lemma InFrame.next_inLoop {f : InFrame} (hf : (ControlChoice.frame f).isNewProxy = false) :
    f.next.inLoop = true := by
  unfold InFrame.next
  split
  · cases hf
  · rfl
  · rfl
  · rfl
  · rfl
  · rfl

namespace World

variable {env : Env} {w w' : World} {o : SessionRef} {a : Action}

/-- The session is about to be torn down or in a teardown: it is in the registry or was, and its task
registers nothing. -/
structure Closing (w : World) (o : SessionRef) : Prop where
  entered : w.Entered o
  idle : (w.control o).pc.isRegistering = false

/-- The steps that take part in the teardown of a session, and those that do not interfere with it: its
control task without new requests, the cleanups of the session, user connections that are dispatched for
it, work connections, request tasks and bridges, sweeps, UDP traffic, and time. -/
def OfTeardown (o : SessionRef) (w : World) : Action → Prop
  | .login _ _ => False
  | .control i c =>
    i = o ∧ c.isNewProxy = false ∨ ((w.control i).pc.cleans i).map Prod.fst = some o
  | .connect s _ => s = o
  | .data k _ => ∀ s ∈ (w.data[k]?).bind DataTask.dispatches, s = o
  | _ => True

instance (o : SessionRef) (w : World) : (a : Action) → Decidable (OfTeardown o w a)
  | .login _ _ => isFalse id
  | .control _ _ => inferInstanceAs (Decidable (_ ∧ _ ∨ _))
  | .connect _ _ => inferInstanceAs (Decidable (_ = _))
  | .data _ _ => inferInstanceAs (Decidable (∀ s ∈ _, s = o))
  | .tick _ => isTrue trivial
  | .shutdown => isTrue trivial
  | .writer _ _ => isTrue trivial
  | .work _ => isTrue trivial
  | .sweep _ => isTrue trivial
  | .udp _ _ => isTrue trivial

/-- The proxy whose statistics a step creates. -/
def counts (w : World) : Action → Option ProxyName
  | .data k _ => (w.data[k]?).bind DataTask.counts
  | _ => none

/-- The session and the proxy whose pool a step creates. -/
def pools (w : World) : Action → Option (SessionRef × ProxyName)
  | .data k _ => (w.data[k]?).bind DataTask.pools
  | _ => none

/-- A step of a teardown is a section of a cleanup of the session, or one of another task. -/
inductive TeardownCase (w w' : World) (o : SessionRef) : Action → Prop
  | cleanup (i : SessionRef) (c : CleanupPc) (hi : w.ahead o i = some c)
      (hcleans : (w.control i).pc.cleans i = some (o, c))
      (hcore : w'.core = (cleanupStep w.core o c).1)
      (hi' : w'.ahead o i = (cleanupStep w.core o c).2.1)
      (hother : ∀ j, j ≠ i → w'.ahead o j = w.ahead o j) : TeardownCase w w' o (.control i .go)
  | task (a : Action) (hkept : TablesKept w.core w'.core o (w.counts a) (w.pools a))
      (hahead : ∀ i, w'.ahead o i = w.ahead o i) : TeardownCase w w' o a

/-- A task that stays where its own cleanup is ahead of it. -/
lemma ahead_of_control {i : SessionRef} (hother : ∀ j ≠ i, w'.control j = w.control j)
    (hi : w'.ahead o i = w.ahead o i) (j : SessionRef) : w'.ahead o j = w.ahead o j := by
  by_cases hji : j = i
  · rw [hji, hi]
  · unfold ahead
    rw [hother j hji]

/-- The section in which the session leaves the registry. -/
lemma Coherent.kept_of_unregister (hcoh : w.Coherent) (ho : w.Entered o)
    {counted : Option ProxyName} {pooled : Option (SessionRef × ProxyName)} :
    TablesKept w.core (w.core.unregisterSession o) o counted pooled := by
  obtain ⟨hsessions, hsessionAt⟩ := hcoh.unregister ho
  obtain ⟨sessions, hframe⟩ := w.core.unregisterSession_frame o
  have hothers : ∀ s, s ≠ o → w.core.Live s → (w.core.unregisterSession o).Live s := by
    intro s hs hlive
    unfold Live at hlive ⊢
    rw [hsessions, hsessionAt, if_neg]
    · exact hlive
    · rintro ⟨hrun, hown⟩
      unfold Live at hown
      rw [hrun, hown] at hlive
      exact hs (Option.some.inj hlive).symm
  rw [hframe] at hothers ⊢
  exact ⟨rfl, rfl, fun _ hn => .inl hn, fun _ hn => hn, fun _ hd => hd, fun _ hn => hn,
    fun _ hn => .inl hn, fun s hs hlive => ⟨hothers s hs hlive, rfl⟩⟩

end World

/-- A cleanup of another session that is not live. -/
lemma kept_of_cleanup {st : ServerState} {o old : SessionRef} (c : CleanupPc) (hne : o ≠ old)
    (hold : ¬st.Live old) {counted : Option ProxyName} {pooled : Option (SessionRef × ProxyName)} :
    TablesKept st (cleanupStep st old c).1 o counted pooled where
  proxies := by rw [cleanupStep_proxies, if_neg fun h => hne h.1]
  proxyDomains := by rw [cleanupStep_proxyDomains, if_neg fun h => hne h.1]
  proxyStats n hn := .inl ((statsTable.of_cleanup st old c).filed hn)
  proxyIndex n hn := (proxyIndexTable.of_cleanup st old c).filed hn
  domainIndex d hd := (domainIndexTable.of_cleanup st old c).filed hd
  udp n hn := (udpTable.of_cleanup st old c).filed hn
  pools n hn := .inl (by rwa [(cleanupStep_releases st old c).other o hne] at hn)
  others s hs hlive := by
    have hne' : s ≠ old := by
      rintro rfl
      exact hold hlive
    refine ⟨((sameRegistry_cleanupStep st old c).live s).mpr hlive, ?_⟩
    rw [cleanupStep_proxies, if_neg fun h => hne' h.1]

/-- The writer tasks and the UDP proxies change no table. -/
lemma kept_of_writerStep {st st' : ServerState} {i : SessionRef} {pc pc' : WriterPc} {c : WriterChoice}
    (h : writerStep st i pc c = some (st', pc')) (o : SessionRef) {counted : Option ProxyName}
    {pooled : Option (SessionRef × ProxyName)} : TablesKept st st' o counted pooled := by
  have hset : ∀ x, TablesKept st (st.setWriterWaiter i x) o counted pooled := fun x =>
    .of_sameTables (.setWriterWaiter st i x) rfl rfl ((SameStreams.setWriterWaiter st i x).pools o)
  unfold writerStep at h
  split at h
  · cases h; exact hset _
  · cases h; exact .refl st o
  · cases h; exact hset _
  · split at h
    · cases h; exact hset _
    · cases h
  · split at h
    · cases h; exact hset _
    · cases h
  · cases h

@[inherit_doc kept_of_writerStep]
lemma kept_of_udpStep {st st' : ServerState} {p : UdpRef} {a : Udp.Action}
    (h : st.udpStep p a = some st') (o : SessionRef) {counted : Option ProxyName}
    {pooled : Option (SessionRef × ProxyName)} : TablesKept st st' o counted pooled := by
  have hsame := SameControl.udpStep h
  refine .of_sameTables hsame.sameTables hsame.udp ?_ ((World.sameStreams_of_udpStep h).pools o)
  unfold udpStep at h
  split at h
  · cases h
  · cases h
  · cases h
  · split at h
    · obtain ⟨m, -, rfl⟩ := Option.map_eq_some_iff.mp h
      rfl
    · obtain ⟨m, -, rfl⟩ := Option.map_eq_some_iff.mp h
      rfl
  · obtain ⟨m, -, rfl⟩ := Option.map_eq_some_iff.mp h
    rfl

namespace World

variable {env : Env} {w w' : World} {o : SessionRef} {a : Action}

/-- A section of a control task of a teardown. -/
lemma teardown_of_control (hcoh : w.Coherent) (hself : w.NoSelf) (hclosing : w.Closing o)
    {i : SessionRef} {c : ControlChoice} (hof : OfTeardown o w (.control i c))
    (h : World.step env w (.control i c) = some w') :
    TeardownCase w w' o (.control i c) ∧ (w'.control o).pc.isRegistering = false := by
  cases controlStep_cases h with
  | other _ _ _ _ _ _ _ _ _ ha => exact absurd rfl (ha i c)
  | control _ _ es hlt hcount hcase hother =>
    generalize hp : (w.control i).pc = p at hcase
    generalize hp' : (w'.control i).pc = p' at hcase
    generalize hst : w'.core = st' at hcase
    have hidle : i ≠ o → (w'.control o).pc.isRegistering = false := by
      intro hio
      rw [hother o (Ne.symm hio)]
      exact hclosing.idle
    -- a task outside of a cleanup of the session is its own task
    have hown : (∀ c', p.cleans i ≠ some (o, c')) → i = o ∧ c.isNewProxy = false := by
      intro hnot
      rcases hof with hof | hof
      · exact hof
      · rw [hp] at hof
        obtain ⟨⟨o', c'⟩, hc', rfl⟩ := Option.map_eq_some_iff.mp hof
        exact absurd hc' (hnot c')
    -- the own task moves, and its cleanup is still ahead of it
    have hmove : i = o → p.ahead o o = some .notify → p'.ahead o o = some .notify →
        p'.isRegistering = false → TablesKept w.core st' o none none →
        TeardownCase w w' o (.control i c) ∧ (w'.control o).pc.isRegistering = false := by
      rintro rfl hahead hahead' hregistering hkept
      rw [← hp] at hahead
      rw [← hp'] at hahead' hregistering
      rw [← hst] at hkept
      exact ⟨.task _ hkept (ahead_of_control hother (hahead'.trans hahead.symm)), hregistering⟩
    have hloop : p.inLoop = true → i = o ∧ c.isNewProxy = false := by
      intro hin
      refine hown fun c' hc' => ?_
      rw [(ControlPc.of_inLoop hin i).1] at hc'
      cases hc'
    have hnot : i = o → p.entered = true ∧ p.isRegistering = false := by
      rintro rfl
      exact ⟨hp ▸ hclosing.entered, hp ▸ hclosing.idle⟩
    cases hcase with
    | login _ _ _ f he =>
      obtain ⟨rfl, -⟩ := hown fun c' hc' => by
        rw [ControlPc.entered_of_cleans hc'] at he
        cases he
      rw [(hnot rfl).1] at he
      cases he
    | swap l =>
      obtain ⟨rfl, -⟩ := hown fun c' hc' => by cases hc'
      cases (hnot rfl).1
    | cleanup _ o' c' hc =>
      by_cases ho : o' = o
      · subst ho
        have hne : p ≠ .replacing i c' := hp ▸ hself i c'
        obtain ⟨hnext, hreg'⟩ := ControlPc.ahead_cleanupNext hc hne (cleanupStep w.core o' c').2.1
        rw [← hp'] at hnext hreg'
        rw [← hp] at hc
        refine ⟨.cleanup i c' (ControlPc.ahead_of_cleans hc) hc hst hnext fun j hj => ?_, ?_⟩
        · unfold ahead
          rw [hother j hj]
        · by_cases hio : i = o'
          · rwa [← hio]
          · exact hidle hio
      · obtain ⟨rfl, -⟩ := hown fun c'' hc'' => by
          rw [hc] at hc''
          cases hc''
          exact ho rfl
        cases p with
        | replacing old c₀ =>
          cases hc
          obtain ⟨hahead, hahead'⟩ := ControlPc.ahead_replacing ho c' (cleanupStep w.core o' c').2.1
          refine hmove rfl hahead hahead' ?_
            (kept_of_cleanup c' (Ne.symm ho) (hcoh.replaced i o' c' hp).2)
          cases (cleanupStep w.core o' c').2.1 <;> rfl
        | cleaning c₀ =>
          cases hc
          exact absurd rfl ho
        | _ => cases hc
    | loop _ _ _ _ hmv hst' =>
      obtain ⟨hin, hin'⟩ := hmv.inLoop
      obtain ⟨rfl, -⟩ := hloop hin
      obtain ⟨-, hahead', hreg'⟩ := ControlPc.of_inLoop hin' i
      refine hmove rfl (ControlPc.of_inLoop hin i).2.1 hahead' hreg' ?_
      rcases hst' with rfl | ⟨x, rfl⟩
      · exact .refl _ i
      · exact .of_sameTables (.setLoopWaiter _ i x) rfl rfl ((SameStreams.setLoopWaiter _ i x).pools i)
    | frame f =>
      obtain ⟨rfl, hf⟩ := hloop rfl
      obtain ⟨-, hahead', hreg'⟩ := ControlPc.of_inLoop (InFrame.next_inLoop hf) i
      exact hmove rfl (ControlPc.of_inLoop rfl i).2.1 hahead' hreg'
        (.of_sameTables (.setLoopWaiter _ i none) rfl rfl ((SameStreams.setLoopWaiter _ i none).pools i))
    | register => 
      obtain ⟨rfl, -⟩ := hown fun c' hc' => by cases hc'
      cases (hnot rfl).2
    | registerRefused =>
      obtain ⟨rfl, -⟩ := hown fun c' hc' => by cases hc'
      cases (hnot rfl).2
    | registerOk =>
      obtain ⟨rfl, -⟩ := hown fun c' hc' => by cases hc'
      cases (hnot rfl).2
    | responded =>
      obtain ⟨rfl, -⟩ := hloop rfl
      exact hmove rfl (ControlPc.of_inLoop rfl i).2.1 (ControlPc.of_inLoop rfl i).2.1 rfl (.refl _ i)
    | unregister =>
      obtain ⟨rfl, -⟩ := hloop rfl
      exact hmove rfl (ControlPc.of_inLoop rfl i).2.1 (ControlPc.ahead_of_cleans rfl) rfl
        (hcoh.kept_of_unregister hclosing.entered)

/-- Every step of a teardown is a section of a cleanup or spares what the cleanups have ahead. -/
theorem teardown_cases (hcoh : w.Coherent) (hself : w.NoSelf) (hclosing : w.Closing o)
    (hof : OfTeardown o w a) (h : World.step env w a = some w') :
    TeardownCase w w' o a ∧ w'.Closing o := by
  -- a step that moves no control task
  have htask : (∀ i, (w'.control i).pc = (w.control i).pc) →
      TablesKept w.core w'.core o (w.counts a) (w.pools a) →
      TeardownCase w w' o a ∧ w'.Closing o := by
    intro hpc hkept
    refine ⟨.task a hkept fun i => ?_, ?_, ?_⟩
    · unfold ahead
      rw [hpc]
    · unfold Entered
      rw [hpc]
      exact hclosing.entered
    · rw [hpc]
      exact hclosing.idle
  cases a with
  | tick ms =>
    cases h
    exact htask (fun _ => rfl)
      (.of_sameTables (SameControl.tick w.core ms).sameTables rfl rfl rfl)
  | shutdown =>
    cases h
    exact htask (fun _ => rfl) (.of_sameTables ⟨rfl, rfl, rfl, fun _ => rfl⟩ rfl rfl rfl)
  | login first ip => exact absurd hof id
  | control i c =>
    obtain ⟨hcase, hidle⟩ := teardown_of_control hcoh hself hclosing hof h
    exact ⟨hcase, hcoh.entered_of_step h hclosing.entered, hidle⟩
  | writer i c =>
    obtain ⟨⟨st, pc⟩, hwriter, rfl⟩ := Option.map_eq_some_iff.mp h
    refine htask (fun j => ?_) (kept_of_writerStep hwriter o)
    dsimp only
    rw [Function.update_apply]
    split
    · next hji => rw [hji]
    · rfl
  | connect s name =>
    unfold World.step at h
    dsimp only at h
    split at h
    · cases h
      exact htask (fun _ => rfl) (.refl w.core o)
    · cases h
  | work frame =>
    cases h
    exact htask (fun _ => rfl) (.refl w.core o)
  | data k c =>
    unfold World.step dataStep at h
    dsimp only at h
    split at h
    · cases h
    next t hk =>
    split at h
    · cases h
    obtain ⟨⟨st, t', es⟩, hstep, rfl⟩ := Option.map_eq_some_iff.mp h
    refine htask (fun _ => rfl) ?_
    unfold counts pools
    dsimp only
    rw [hk]
    exact DataTask.step_kept hstep o
  | sweep timeout =>
    cases h
    exact htask (fun _ => rfl)
      (.of_sameTables (SameControl.sweepExpiredPending w.core timeout).sameTables rfl rfl rfl)
  | udp p a =>
    obtain ⟨st, hst, rfl⟩ := Option.map_eq_some_iff.mp h
    exact htask (fun _ => rfl) (kept_of_udpStep hst o)

end World

/-- The cleanups of a session with regard to a table. -/
def CleanupTable.removal {κ : Type} (T : CleanupTable κ) (w : World) (o : SessionRef) :
    Removal SessionRef κ where
  cleaner i := ((w.ahead o i).map T.cleaner).getD .absent
  listed := T.listed w.core o
  filed := T.filed w.core o

/-- The key was in the table before the teardown, and not as one of the session. -/
def CleanupTable.Foreign {κ : Type} (T : CleanupTable κ) (w₀ : World) (o : SessionRef) (k : κ) :
    Prop :=
  T.filed w₀.core o k ∧ ¬T.listed w₀.core o k

namespace World

variable {env : Env} {w₀ w w' : World} {o : SessionRef} {a : Action}

/-- A step of a teardown is a step of the removal from each of the tables. -/
lemma TeardownCase.removal (h : TeardownCase w w' o a) {κ : Type} (T : CleanupTable κ) :
    Removal.Step (T.removal w o) (T.removal w' o) (T.late o (w.counts a) (w.pools a)) := by
  cases h with
  | cleanup i c hi _ hcore hi' hother =>
    refine .cleaner i ?_ fun j hj => ?_
    · unfold CleanupTable.removal
      dsimp only
      rw [hi, hi', hcore]
      exact T.of_cleanup w.core o c
    · unfold CleanupTable.removal
      dsimp only
      rw [hother j hj]
  | task _ hkept hahead =>
    obtain ⟨hlisted, hfiled⟩ := T.of_kept hkept
    refine .task (fun i => ?_) hlisted hfiled
    unfold CleanupTable.removal
    dsimp only
    rw [hahead]

/-- The other live sessions are not concerned. -/
lemma TeardownCase.others (h : TeardownCase w w' o a) {s : SessionRef} (hs : s ≠ o)
    (hlive : w.core.Live s) :
    w'.core.Live s ∧ (w'.core.sessionAt s).proxies = (w.core.sessionAt s).proxies := by
  cases h with
  | cleanup i c _ _ hcore =>
    rw [hcore]
    refine ⟨((sameRegistry_cleanupStep w.core o c).live s).mpr hlive, ?_⟩
    rw [cleanupStep_proxies, if_neg fun h => hs h.1]
  | task _ hkept => exact hkept.others s hs hlive

/-! ## Late writes that come in time -/

/-- A live session other than `o` has a proxy of this name. -/
def HeldElsewhere (w : World) (o : SessionRef) (n : ProxyName) : Prop :=
  ∃ s, s < w.controlCount ∧ s ≠ o ∧ w.core.Live s ∧ w.core.Holds s n

instance (w : World) (o : SessionRef) (n : ProxyName) : Decidable (w.HeldElsewhere o n) :=
  inferInstanceAs (Decidable (∃ s, s < w.controlCount ∧ _))

/-- A teardown takes no name from another session. -/
lemma HeldElsewhere.of_case (h : TeardownCase w w' o a) (hcount : w.controlCount ≤ w'.controlCount)
    {n : ProxyName} (hn : w.HeldElsewhere o n) : w'.HeldElsewhere o n := by
  obtain ⟨s, hlt, hs, hlive, hholds⟩ := hn
  obtain ⟨hlive', hproxies⟩ := h.others hs hlive
  refine ⟨s, hlt.trans_le hcount, hs, hlive', ?_⟩
  unfold Holds at hholds ⊢
  rwa [hproxies]

/-- Some cleanup of the session has a section of this kind ahead of it. -/
def someAhead (w : World) (o : SessionRef) (p : CleanupPc → Bool) : Bool :=
  (List.range w.controlCount).any fun i => (w.ahead o i).any p

end World

namespace CleanupPc

/-- The cleanup has not collected the names of its session. -/
def copies : CleanupPc → Bool
  | notify => true
  | collect => true
  | _ => false

/-- The cleanup has collected this name, and the statistics come next. -/
def removesStats (name : ProxyName) : CleanupPc → Bool
  | removeStats m => m.proxyNames.contains name
  | _ => false

/-- The cleanup has not emptied the pools. -/
def drainsPools : CleanupPc → Bool
  | retainPending => false
  | _ => true

end CleanupPc

namespace World

variable {env : Env} {w₀ w w' : World} {o : SessionRef} {a : Action}

/-- A cleanup of the session is going to remove the statistics of this proxy. -/
def removesStats (w : World) (o : SessionRef) (n : ProxyName) : Bool :=
  w.someAhead o (CleanupPc.removesStats n) ||
    (w.core.nameTaken o n && w.someAhead o CleanupPc.copies)

/-- A late write comes in time: statistics are created for a proxy while a cleanup of the session is going
to remove them, a connection is pooled while a cleanup is going to empty the pools, and the proxies are
drained while those that have statistics are known to a cleanup that is going to remove these.  The
statistics of a name that another live session has as well may stay. -/
def Timely (o : SessionRef) (w : World) : Action → Prop
  | .data k c =>
    (∀ n ∈ w.counts (.data k c), w.HeldElsewhere o n ∨ w.removesStats o n = true) ∧
      ∀ e ∈ w.pools (.data k c), e.1 = o → w.someAhead o CleanupPc.drainsPools = true
  | .control i _ =>
    (w.ahead o i).any CleanupPc.drains = true → ∀ n ∈ (w.core.sessionAt o).proxies.keys,
      w.core.proxyStats.containsKey n = true →
        w.HeldElsewhere o n ∨ w.someAhead o (CleanupPc.removesStats n) = true
  | _ => True

instance (o : SessionRef) (w : World) : (a : Action) → Decidable (Timely o w a)
  | .data _ _ => inferInstanceAs (Decidable ((∀ n ∈ _, _ ∨ _) ∧ ∀ e ∈ _, _ → _))
  | .control _ _ => inferInstanceAs (Decidable (_ → ∀ n ∈ _, _ → _ ∨ _))
  | .login _ _ => isTrue trivial
  | .connect _ _ => isTrue trivial
  | .tick _ => isTrue trivial
  | .shutdown => isTrue trivial
  | .writer _ _ => isTrue trivial
  | .work _ => isTrue trivial
  | .sweep _ => isTrue trivial
  | .udp _ _ => isTrue trivial

/-- What some cleanup has listed and not removed is held. -/
lemma held_of_someAhead {κ : Type} (T : CleanupTable κ) {p : CleanupPc → Bool} {k : κ}
    (hp : ∀ c, p c = true → ∃ keys, T.cleaner c = .holding keys ∧ keys k)
    (h : w.someAhead o p = true) : (T.removal w o).Held k := by
  obtain ⟨i, -, hi⟩ := List.any_eq_true.mp h
  obtain ⟨c, hc, hpc⟩ := (Option.any_eq_true ..).mp hi
  obtain ⟨keys, hkeys, hk⟩ := hp c hpc
  refine ⟨i, keys, ?_, hk⟩
  unfold CleanupTable.removal
  dsimp only
  rw [hc]
  exact hkeys

/-- The statistics that some cleanup is about to remove are held. -/
lemma held_of_removesStats {n : ProxyName}
    (h : w.someAhead o (CleanupPc.removesStats n) = true) : (statsTable.removal w o).Held n := by
  refine held_of_someAhead statsTable (fun c hc => ?_) h
  cases c with
  | removeStats m => exact ⟨_, rfl, List.contains_iff_mem.mp hc⟩
  | _ => cases hc

/-- The statistics that some cleanup is going to remove are doomed. -/
lemma doomed_of_removesStats {n : ProxyName} (h : w.removesStats o n = true) :
    (statsTable.removal w o).Doomed n := by
  rcases (Bool.or_eq_true ..).mp h with hheld | hlisted
  · exact .inl (held_of_removesStats hheld)
  · obtain ⟨htaken, hcopies⟩ := (Bool.and_eq_true ..).mp hlisted
    obtain ⟨i, -, hi⟩ := List.any_eq_true.mp hcopies
    obtain ⟨c, hc, hcc⟩ := (Option.any_eq_true ..).mp hi
    refine .inr ⟨(w.core.nameTaken_iff o n).mp htaken, i, ?_⟩
    unfold CleanupTable.removal
    dsimp only
    rw [hc]
    cases c with
    | notify => rfl
    | collect => rfl
    | _ => cases hcc

/-- While some cleanup has not emptied the pools, they are held. -/
lemma held_of_drainsPools {n : ProxyName} (h : w.someAhead o CleanupPc.drainsPools = true) :
    (poolsTable.removal w o).Held n := by
  refine held_of_someAhead poolsTable (fun c hc => ?_) h
  cases c with
  | retainPending => cases hc
  | _ => exact ⟨_, rfl, trivial⟩

/-! ## The tables of a teardown -/

/-- What a teardown from `w₀` on keeps: what is filed in a table is going to be removed, unless it was
there before and not of the session, or is the statistics of a name that another live session has. -/
structure Kept (o : SessionRef) (w₀ w : World) : Prop where
  proxyStats : ∀ n, statsTable.Foreign w₀ o n ∨ w.HeldElsewhere o n ∨
    ((statsTable.removal w o).filed n → (statsTable.removal w o).Doomed n)
  pools : ∀ n, (poolsTable.removal w o).filed n → (poolsTable.removal w o).Doomed n
  proxyIndex : ∀ n, proxyIndexTable.Foreign w₀ o n ∨ (proxyIndexTable.removal w o).Tidy n
  domainIndex : ∀ d, domainIndexTable.Foreign w₀ o d ∨ (domainIndexTable.removal w o).Tidy d
  udp : ∀ n, udpTable.Foreign w₀ o n ∨ (udpTable.removal w o).Tidy n

/-- After a timely step, statistics that are filed are foreign, of a name held elsewhere, or doomed. -/
lemma Kept.stats_of_step (hw : Kept o w₀ w) (hcase : TeardownCase w w' o a) (htimely : Timely o w a)
    (hcount : w.controlCount ≤ w'.controlCount) (n : ProxyName) :
    statsTable.Foreign w₀ o n ∨ w'.HeldElsewhere o n ∨
      ((statsTable.removal w' o).filed n → (statsTable.removal w' o).Doomed n) := by
  by_cases helse : w.HeldElsewhere o n
  · exact .inr (.inl (helse.of_case hcase hcount))
  rcases hw.proxyStats n with hforeign | held | hdoomed
  · exact .inl hforeign
  · exact absurd held helse
  refine .inr (.inr ((hcase.removal statsTable).doomed hdoomed (fun hlate => ?_) ?_))
  · -- a user connection is counted
    cases a with
    | data k c => exact doomed_of_removesStats ((htimely.1 n hlate).resolve_left helse)
    | _ => cases hlate
  · -- the proxies are drained
    intro hlisted hnot hfiled
    cases hcase with
    | cleanup i c hi _ hcore =>
      change ¬w'.core.Holds o n at hnot
      rw [hcore] at hnot
      by_cases hdrains : c.drains = true
      · have hmem : n ∈ (w.core.sessionAt o).proxies.keys := (HashMap.mem_keys ..).mpr hlisted
        have hany : (w.ahead o i).any CleanupPc.drains = true := by rw [hi]; exact hdrains
        exact held_of_removesStats ((htimely hany n hmem hfiled).resolve_left helse)
      · exact absurd ((cleanupStep_holds w.core o (Bool.eq_false_iff.mpr hdrains) n).mpr hlisted) hnot
    | task _ hkept => exact absurd (((statsTable.of_kept hkept).1 n).mpr hlisted) hnot

/-- A timely step leaves only pools that are going to be emptied. -/
lemma Kept.pools_of_step (hw : Kept o w₀ w) (hcase : TeardownCase w w' o a)
    (htimely : Timely o w a) (n : ProxyName) (hfiled : (poolsTable.removal w' o).filed n) :
    (poolsTable.removal w' o).Doomed n := by
  refine (hcase.removal poolsTable).doomed (hw.pools n) (fun hlate => ?_)
    (fun hlisted => absurd hlisted id) hfiled
  cases a with
  | data k c => exact .inl (held_of_drainsPools (htimely.2 _ hlate rfl))
  | _ => cases hlate

/-- Every timely step of a teardown keeps what the teardown keeps. -/
lemma Kept.step (hw : Kept o w₀ w) (hcase : TeardownCase w w' o a) (htimely : Timely o w a)
    (hcount : w.controlCount ≤ w'.controlCount) : Kept o w₀ w' where
  proxyStats := hw.stats_of_step hcase htimely hcount
  pools := hw.pools_of_step hcase htimely
  proxyIndex n :=
    (hw.proxyIndex n).imp_right fun htidy => (hcase.removal proxyIndexTable).tidy htidy id
  domainIndex d :=
    (hw.domainIndex d).imp_right fun htidy => (hcase.removal domainIndexTable).tidy htidy id
  udp n := (hw.udp n).imp_right fun htidy => (hcase.removal udpTable).tidy htidy id

/-! ## The beginning and the end of a teardown -/

/-- A teardown is about to begin: no cleanup of the session is past its first section, and the own task
has its cleanup ahead of it. -/
structure Ready (w : World) (o : SessionRef) : Prop extends Closing w o where
  own : w.ahead o o = some .notify
  others : ∀ i, i < w.controlCount → w.ahead o i = none ∨ w.ahead o i = some .notify

instance (w : World) (o : SessionRef) : Decidable (w.Ready o) :=
  decidable_of_iff ((w.control o).pc.entered = true ∧ (w.control o).pc.isRegistering = false ∧
      w.ahead o o = some .notify ∧
      ∀ i, i < w.controlCount → w.ahead o i = none ∨ w.ahead o i = some .notify)
    ⟨fun h => ⟨⟨h.1, h.2.1⟩, h.2.2.1, h.2.2.2⟩, fun h => ⟨h.entered, h.idle, h.own, h.others⟩⟩

/-- Tasks that do not exist clean nothing up. -/
lemma Coherent.lt_of_ahead (hcoh : w.Coherent) (ho : w.Entered o) {i : SessionRef} {c : CleanupPc}
    (h : w.ahead o i = some c) : i < w.controlCount := by
  by_cases hio : i = o
  · rw [hio]
    exact hcoh.bound o ho
  · by_contra hle
    have hnone : w.ahead o i = none := by
      refine ControlPc.ahead_of_ne (fun c' hc' => ?_) hio
      exact hle (hcoh.bound i (ControlPc.entered_of_cleans hc'))
    rw [hnone] at h
    cases h

/-- When a teardown is about to begin, no cleanup is past the start with regard to any table. -/
lemma Ready.cleaner (hready : w.Ready o) (hcoh : w.Coherent) {κ : Type} (T : CleanupTable κ)
    (hT : T.cleaner .notify = .waiting) :
    (T.removal w o).cleaner o = .waiting ∧
      ∀ i, (T.removal w o).cleaner i = .absent ∨ (T.removal w o).cleaner i = .waiting := by
  unfold CleanupTable.removal
  dsimp only
  refine ⟨by rw [hready.own]; exact hT, fun i => ?_⟩
  cases hi : w.ahead o i with
  | none => exact .inl rfl
  | some c =>
    have hlt := hcoh.lt_of_ahead hready.entered hi
    rcases hready.others i hlt with hnone | hnotify
    · rw [hi] at hnone
      cases hnone
    · rw [hi] at hnotify
      cases hnotify
      exact .inr hT

/-- A table before the teardown. -/
lemma Ready.foreign_or_tidy (hready : w.Ready o) (hcoh : w.Coherent) {κ : Type}
    (T : CleanupTable κ) (hT : T.cleaner .notify = .waiting) (k : κ) :
    T.Foreign w o k ∨ (T.removal w o).Tidy k := by
  obtain ⟨hown, hall⟩ := hready.cleaner hcoh T hT
  by_cases hforeign : T.Foreign w o k
  · exact .inl hforeign
  · refine .inr (.of_waiting hown hall fun hfiled => ?_)
    by_contra hnot
    exact hforeign ⟨hfiled, hnot⟩

/-- A teardown that is about to begin keeps everything, measured from where it begins. -/
lemma Ready.kept (hready : w.Ready o) (hcoh : w.Coherent) : Kept o w w where
  proxyStats n :=
    (hready.foreign_or_tidy hcoh statsTable rfl n).imp_right fun htidy => .inr htidy.doomed
  pools n _ := by
    refine .inl ⟨o, fun _ => True, ?_, trivial⟩
    unfold CleanupTable.removal
    dsimp only
    rw [hready.own]
    rfl
  proxyIndex := hready.foreign_or_tidy hcoh proxyIndexTable rfl
  domainIndex := hready.foreign_or_tidy hcoh domainIndexTable rfl
  udp := hready.foreign_or_tidy hcoh udpTable rfl

end World

/-- The session that a work connection has resolved. -/
def DataTask.resolved : DataTask → Option SessionRef
  | isUdp _ _ s => some s
  | pool _ _ s => some s
  | take _ _ s => some s
  | _ => none

/-- The pending entry that a request task is for. -/
def DataTask.requests : DataTask → Option WorkId
  | request id _ => some id
  | asleep id _ => some id
  | giveUp id => some id
  | _ => none

/-- A task that watches an entry is the request task of its work id. -/
lemma DataTask.Watches.requests {t : DataTask} {id : WorkId} {e : PendingWork}
    (h : t.Watches id e) : t.requests = some id := by
  cases t with
  | request id' deadline => exact congrArg some h.1
  | asleep id' deadline => exact congrArg some h.1
  | giveUp id' => exact congrArg some h
  | _ => cases h

namespace World

variable {env : Env} {w₀ w w' : World} {o : SessionRef} {a : Action}

/-- The tasks of a teardown have ended: the control task of the session and every cleanup, the dispatched
user connections, the work connections that have resolved the session, and the request tasks of its
pending entries. -/
structure Finished (w : World) (o : SessionRef) : Prop where
  control : (w.control o).pc = .returned
  cleanups : ∀ i, i < w.controlCount → w.ahead o i = none
  dispatches : ∀ t ∈ w.data, t.dispatches ≠ some o
  works : ∀ t ∈ w.data, t.resolved ≠ some o
  requests : ∀ t ∈ w.data, ((t.requests.bind w.core.pending.get).map PendingWork.sessionId) ≠
    some (w.core.sessionAt o).sessionId

instance (w : World) (o : SessionRef) : Decidable (w.Finished o) :=
  decidable_of_iff ((w.control o).pc = .returned ∧ (∀ i, i < w.controlCount → w.ahead o i = none) ∧
      (∀ t ∈ w.data, t.dispatches ≠ some o) ∧ (∀ t ∈ w.data, t.resolved ≠ some o) ∧
      ∀ t ∈ w.data, ((t.requests.bind w.core.pending.get).map PendingWork.sessionId) ≠
        some (w.core.sessionAt o).sessionId)
    ⟨fun h => ⟨h.1, h.2.1, h.2.2.1, h.2.2.2.1, h.2.2.2.2⟩,
      fun h => ⟨h.control, h.cleanups, h.dispatches, h.works, h.requests⟩⟩

/-- Nothing of the session is left: no pending entry, no pool, and no name or domain of it in a table of
the server that no live session has registered. -/
structure TornDown (o : SessionRef) (w₀ w : World) : Prop where
  pending : ∀ id e, w.core.pending.get id = some e →
    e.sessionId ≠ (w.core.sessionAt o).sessionId
  pools : (w.core.sessionAt o).pools = ∅
  proxyStats : ∀ n, w.core.proxyStats.containsKey n = true →
    (∃ s, w.core.Live s ∧ w.core.Holds s n) ∨ statsTable.Foreign w₀ o n
  proxyIndex : ∀ n, w.core.proxyIndex.containsKey n = true →
    (∃ s, w.core.Live s ∧ w.core.Holds s n) ∨ proxyIndexTable.Foreign w₀ o n
  domainIndex : ∀ d, w.core.domainIndex.containsKey d = true →
    (∃ s, w.core.Live s ∧ w.core.HoldsDomain s d) ∨ domainIndexTable.Foreign w₀ o d
  udp : ∀ n, w.core.udp.containsKey n = true →
    (∃ s, w.core.Live s ∧ w.core.Holds s n) ∨ udpTable.Foreign w₀ o n

/-- When no cleanup is left, nothing is doomed. -/
lemma Finished.not_doomed (hfin : w.Finished o) (hcoh : w.Coherent) (ho : w.Entered o) {κ : Type}
    (T : CleanupTable κ) (k : κ) : ¬(T.removal w o).Doomed k := by
  refine Removal.not_doomed_of_absent (fun i => ?_) k
  have hnone : w.ahead o i = none := by
    cases hi : w.ahead o i with
    | none => rfl
    | some c =>
      rw [hfin.cleanups i (hcoh.lt_of_ahead ho hi)] at hi
      cases hi
  unfold CleanupTable.removal
  dsimp only
  rw [hnone]
  rfl

/-- When all cleanups have ended, what a table still files was there before and not of the session. -/
lemma Finished.foreign (hfin : w.Finished o) (hcoh : w.Coherent) (ho : w.Entered o) {κ : Type}
    (T : CleanupTable κ) {k : κ} (hk : T.Foreign w₀ o k ∨ (T.removal w o).Tidy k)
    (hfiled : T.filed w.core o k) : T.Foreign w₀ o k := by
  rcases hk with hforeign | htidy
  · exact hforeign
  · exact absurd (htidy.doomed hfiled) (hfin.not_doomed hcoh ho T k)

/-- A user connection that still waits has a request task, or the sweep takes it. -/
lemma Finished.not_pending (hfin : w.Finished o) (hwatched : w.Watched)
    (hsweep : World.step env w (.sweep (fromSecs workConnTimeoutRfrps)) = some w') (id : WorkId)
    (e : PendingWork) (he : w'.core.pending.get id = some e) :
    e.sessionId ≠ (w.core.sessionAt o).sessionId := by
  intro hsession
  have hold : w.core.pending.get id = some e := by
    cases hsweep
    change (w.core.pending.retain _).get id = some e at he
    rw [HashMap.get_retain, Option.filter_eq_some_iff] at he
    exact he.1
  refine hwatched.not_pending_of_sweep (fun t ht hwatch => ?_) hsweep he
  apply hfin.requests t ht
  rw [hwatch.requests, Option.bind_some, hold, Option.map_some, hsession]

/-- When all cleanups have ended and a sweep has passed, the session is torn down. -/
lemma Kept.tornDown (hkept : Kept o w₀ w) (hfin : w.Finished o) (hcoh : w.Coherent)
    (hwatched : w.Watched) (ho : w.Entered o)
    (hsweep : World.step env w (.sweep (fromSecs workConnTimeoutRfrps)) = some w') :
    TornDown o w₀ w' := by
  have hpending := hfin.not_pending hwatched hsweep
  -- the sweep changes no other table
  cases hsweep
  refine ⟨hpending, ?_, fun n hn => ?_, fun n hn => ?_, fun d hd => ?_, fun n hn => ?_⟩
  · refine (HashMap.eq_empty_iff _).mpr fun n => ?_
    rw [← HashMap.containsKey_eq_false]
    by_contra hn
    have hfiled : (w.core.sessionAt o).pools.containsKey n = true := Bool.eq_true_of_not_eq_false hn
    exact hfin.not_doomed hcoh ho poolsTable n (hkept.pools n hfiled)
  · rcases hkept.proxyStats n with hforeign | ⟨s, -, -, hlive, hholds⟩ | hdoomed
    · exact .inr hforeign
    · exact .inl ⟨s, hlive, hholds⟩
    · exact absurd (hdoomed hn) (hfin.not_doomed hcoh ho statsTable n)
  · exact .inr (hfin.foreign hcoh ho proxyIndexTable (hkept.proxyIndex n) hn)
  · exact .inr (hfin.foreign hcoh ho domainIndexTable (hkept.domainIndex d) hd)
  · exact .inr (hfin.foreign hcoh ho udpTable (hkept.udp n) hn)

/-- A run in which session `o` is torn down and all that holds it ends, with the sweep after it. -/
structure Teardown (env : Env) (o : SessionRef) (pre as : List Action) (w₀ w w' : World) : Prop where
  reached : Exec.run (World.step env) .new pre = some w₀
  ready : w₀.Ready o
  run : Exec.run (World.step env) w₀ as = some w
  steps : Exec.Guarded (World.step env) (OfTeardown o) w₀ as
  finished : w.Finished o
  swept : World.step env w (.sweep (fromSecs workConnTimeoutRfrps)) = some w'

/-- In every run in which a session is torn down, with the cleanups of the session, the user connections
that are dispatched for it and the work connections that have resolved it interleaved at every lock and
await: when the late writes come in time, nothing of the session is left at the end. -/
theorem tornDown_of_timely (env : Env) (o : SessionRef) (pre as : List Action) (w₀ w w' : World)
    (h : Teardown env o pre as w₀ w w')
    (htimely : Exec.Guarded (World.step env) (Timely o) w₀ as) : TornDown o w₀ w' := by
  have hbase : w₀.Coherent ∧ w₀.NoSelf ∧ w₀.Watched := by
    refine Exec.run_induction (P := fun w => w.Coherent ∧ w.NoSelf ∧ w.Watched) ?_
      ⟨.of_new, .of_new, .of_new⟩ h.reached
    rintro w a w' ⟨hcoh, hself, hwatched⟩ h
    exact ⟨hcoh.step h, hself.step hcoh h, hwatched.step hcoh h⟩
  have hend : (w.Coherent ∧ w.NoSelf ∧ w.Watched) ∧ w.Closing o ∧ Kept o w₀ w := by
    refine Exec.run_induction_of_guarded
      (P := fun w => (w.Coherent ∧ w.NoSelf ∧ w.Watched) ∧ w.Closing o ∧ Kept o w₀ w) ?_
      (h.steps.and htimely) ⟨hbase, h.ready.toClosing, h.ready.kept hbase.1⟩ h.run
    rintro w a w' ⟨hof, htimely⟩ ⟨⟨hcoh, hself, hwatched⟩, hclosing, hkept⟩ h
    obtain ⟨hcase, hclosing'⟩ := teardown_cases hcoh hself hclosing hof h
    exact ⟨⟨hcoh.step h, hself.step hcoh h, hwatched.step hcoh h⟩, hclosing',
      hkept.step hcase htimely (step_mono h).1⟩
  obtain ⟨⟨hcoh, -, hwatched⟩, hclosing, hkept⟩ := hend
  exact hkept.tornDown h.finished hcoh hwatched hclosing.entered h.swept

/-- A client has registered a proxy; a user connection and a work connection of this proxy have arrived,
and are about to be counted and to be pooled. -/
def sshConnected : List Action :=
  loginSteps 0 "7f6b5e0e-2f3c-4c9a-9d53-0a4d5f1c0001" "a1f0a3c6-55a1-4b0e-8a3b-2f6d0c9e0001"
    "c2d1b4d7-66b2-4c1f-9b4c-3f7e1dad0001" 0 ++
  [newProxyStep 0 ⟨"ssh", .tcp, some 2222, none⟩] ++ registerSteps 0 6 ++
  [.control 0 (.sent true), .control 0 .go, .connect 0 "ssh", .data 0 .go,
    .work ⟨"ssh", 0, some "c2d1b4d7-66b2-4c1f-9b4c-3f7e1dad0001"⟩, .data 1 .go, .data 1 .go]

/-- The sections of the user connection, up to its request. -/
def dispatchSteps : List Action := List.replicate 4 (.data 0 .go) ++ [.data 0 (.sent true)]

/-- The control task cleans up after the user connection has become pending and the work connection was
pooled. -/
def timelyWrites : List Action :=
  dispatchSteps ++ [.data 1 .go, .control 0 .disconnected] ++ List.replicate 12 (.control 0 .go) ++
  [.data 0 .go]

/-- The cleanup takes both out of the tables. -/
theorem tornDown_of_timelyWrites :
    ∃ w₀ w w', Teardown System.sampleEnv 0 sshConnected timelyWrites w₀ w w' ∧
      TornDown 0 w₀ w' := by
  have hobs : ((Exec.run (World.step System.sampleEnv) .new sshConnected).bind fun w₀ =>
      (Exec.run (World.step System.sampleEnv) w₀ timelyWrites).map fun w =>
        (decide (w₀.Ready 0),
          decide (Exec.Guarded (World.step System.sampleEnv) (OfTeardown 0) w₀ timelyWrites),
          decide (Exec.Guarded (World.step System.sampleEnv) (Timely 0) w₀ timelyWrites),
          decide (w.Finished 0))) = some (true, true, true, true) := by
    decide
  obtain ⟨w₀, hpre, hobs⟩ := Option.bind_eq_some_iff.mp hobs
  obtain ⟨w, hrun, hw⟩ := Option.map_eq_some_iff.mp hobs
  simp only [Prod.mk.injEq, decide_eq_true_eq] at hw
  obtain ⟨hready, hsteps, htimely, hfin⟩ := hw
  have hteardown : Teardown System.sampleEnv 0 sshConnected timelyWrites w₀ w _ :=
    ⟨hpre, hready, hrun, hsteps, hfin, rfl⟩
  exact ⟨w₀, w, _, hteardown, tornDown_of_timely _ _ _ _ _ _ _ hteardown htimely⟩

/-- The user connection is counted after the cleanup has removed the statistics, and the work connection
is pooled after it has emptied the pools. -/
def lateWrites : List Action :=
  [.control 0 .disconnected] ++ List.replicate 5 (.control 0 .go) ++ dispatchSteps ++
  List.replicate 7 (.control 0 .go) ++ [.data 1 .go, .data 0 .go]

/-- The statistics of the proxy and a pool of the session stay, though there is no session any more. -/
theorem late_writes_are_left :
    ∃ w₀ w w', Teardown System.sampleEnv 0 sshConnected lateWrites w₀ w w' ∧
      w'.core.sessions.keys = [] ∧ w'.core.proxyStats.containsKey "ssh" = true ∧
      (w'.core.sessionAt 0).pools.get "ssh" = some [0] ∧ ¬TornDown 0 w₀ w' := by
  have hobs : ((Exec.run (World.step System.sampleEnv) .new sshConnected).bind fun w₀ =>
      (Exec.run (World.step System.sampleEnv) w₀ lateWrites).map fun w =>
        (decide (w₀.Ready 0 ∧ w₀.core.Holds 0 "ssh"),
          decide (Exec.Guarded (World.step System.sampleEnv) (OfTeardown 0) w₀ lateWrites),
          decide (w.Finished 0 ∧ w.core.sessions.keys = []),
          decide (w.core.proxyStats.containsKey "ssh" = true ∧
            (w.core.sessionAt 0).pools.get "ssh" = some [0]))) = some (true, true, true, true) := by
    decide
  obtain ⟨w₀, hpre, hobs⟩ := Option.bind_eq_some_iff.mp hobs
  obtain ⟨w, hrun, hw⟩ := Option.map_eq_some_iff.mp hobs
  simp only [Prod.mk.injEq, decide_eq_true_eq] at hw
  obtain ⟨⟨hready, hholds⟩, hsteps, ⟨hfin, hkeys⟩, hstats, hpool⟩ := hw
  refine ⟨w₀, w, _, ⟨hpre, hready, hrun, hsteps, hfin, rfl⟩, hkeys, hstats, hpool, fun htorn => ?_⟩
  rcases htorn.proxyStats "ssh" hstats with ⟨s, hlive, -⟩ | hforeign
  · have hmem := (HashMap.mem_keys ..).mpr ⟨s, hlive⟩
    have hnil : (w.core.sessionAt s).runId ∈ w.core.sessions.keys := hmem
    rw [hkeys] at hnil
    cases hnil
  · exact hforeign.2 hholds

end World

end Rfrp
