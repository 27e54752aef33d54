import Rfrp.Server.Domains

/-!
# Registrations of a session that is being replaced

A login that replaces a session cleans it up and then lets its own client register, while the task of the
old session may still be inside `register_proxy` or on the way to its own `cleanup`.  What the old task
writes afterwards stands under the run id of the new session, and what its `cleanup` removes it removes
by name.

What the new session has registered is kept in the runs in which no registration puts a key into a table
that another live session has in its index, and in which a registration of a live session writes a key
only where no other session has it in a table or has a cleanup under way that is about to remove it
(`replacement_kept`).  A registration that is in flight while its session is replaced shows that the
condition is needed.
-/

namespace Rfrp

open ServerState

namespace World

variable {κ ω : Type} {env : Env} {w w' : World}

/-! ## The condition -/

/-- No other live session has the key in the index. -/
def KeyUnwritten (V : IndexView κ ω) (w : World) (i : SessionRef) (k : κ) : Prop :=
  ∀ j < w.controlCount, j ≠ i → w.core.Live j →
    V.entry w.core j k = none ∨ k ∈ V.unwritten (w.control j).pc

/-- No other session has the key in its table, and no cleanup of another session has still to remove it
from the index. -/
def KeyFree (V : IndexView κ ω) (w : World) (i : SessionRef) (k : κ) : Prop :=
  ∀ j < w.controlCount, (j ≠ i → V.entry w.core j k = none) ∧
    ∀ x ∈ (w.control j).pc.cleans j, x.1 ≠ i → k ∉ V.names x.2

/-- The key is free for a session that is live, and the entry that is written is the one that every
other live session has in the index. -/
def KeyWritable (V : IndexView κ ω) (w : World) (i : SessionRef) (k : κ) (v : ω) : Prop :=
  (w.core.Live i → w.KeyFree V i k) ∧
    ∀ j < w.controlCount, j ≠ i → w.core.Live j →
      V.entry w.core j k = none ∨ k ∈ V.unwritten (w.control j).pc ∨ V.entry w.core j k = some v

/-- A registration takes its name and its domains only while no other live session has them in the
index, and writes them only where they are writable. -/
def Uncontested (env : Env) (w : World) (a : Action) : Prop :=
  ∀ i ∈ a.registers,
    ((∀ np ∈ (w.control i).pc.takesName, w.KeyUnwritten nameView i np.proxyName) ∧
      ∀ np ∈ (w.control i).pc.writesName,
        w.KeyWritable nameView i np.proxyName (w.core.sessionAt i).runId) ∧
    (∀ np ∈ (w.control i).pc.takesDomains, ∀ d ∈ registerDomains env np,
      w.KeyUnwritten domainView i d) ∧
    ∀ x ∈ (w.control i).pc.writesDomain,
      w.KeyWritable domainView i x.2 ((w.core.sessionAt i).runId, x.1.proxyName)

section Decidable

variable [DecidableEq κ] [DecidableEq ω] (V : IndexView κ ω) (w : World) (i : SessionRef) (k : κ)

instance : Decidable (w.KeyUnwritten V i k) :=
  inferInstanceAs (Decidable (∀ j < _, _ → _ → _ ∨ _))

instance : Decidable (w.KeyFree V i k) :=
  inferInstanceAs (Decidable (∀ j < _, _ ∧ _))

instance (v : ω) : Decidable (w.KeyWritable V i k v) :=
  inferInstanceAs (Decidable (_ ∧ _))

end Decidable

instance (env : Env) (w : World) (a : Action) : Decidable (Uncontested env w a) :=
  inferInstanceAs (Decidable (∀ i ∈ _, (_ ∧ _) ∧ _ ∧ _))

/-! ## The condition in terms of claims -/

/-- A session to come has no entries. -/
lemma entry_of_fresh (V : IndexView κ ω) (hw : w.Coherent) (he : w.Emptied) {j : SessionRef}
    (hj : ¬j < w.controlCount) (k : κ) : V.entry w.core j k = none := by
  obtain ⟨hproxies, hdomains⟩ := he.fresh j fun hj' => hj (hw.bound j hj')
  exact V.entry_of_empty k hproxies hdomains

/-- The condition on the sessions there are is that of the claims on the index. -/
lemma KeyUnwritten.claims {V : IndexView κ ω} (hw : w.Coherent) (he : w.Emptied) {i : SessionRef}
    {k : κ} (h : w.KeyUnwritten V i k) : (w.claims V).Unwritten i k := by
  intro j hj hl v hv
  change V.entry w.core j k = some v at hv
  by_cases hlt : j < w.controlCount
  · refine (h j hlt hj hl).resolve_left fun hnone => ?_
    rw [hnone] at hv
    cases hv
  · rw [entry_of_fresh V hw he hlt] at hv
    cases hv

/-- The condition that a key is free is that of the claims on the index. -/
lemma KeyFree.claims {V : IndexView κ ω} (hw : w.Coherent) (he : w.Emptied) {i : SessionRef} {k : κ}
    (h : w.KeyFree V i k) : (w.claims V).Free i k where
  entry j hj := by
    by_cases hlt : j < w.controlCount
    · exact (h j hlt).1 hj
    · exact entry_of_fresh V hw he hlt k
  doomed o ho := by
    rintro ⟨t, c, hc, hk⟩
    have ht : t < w.controlCount := hw.bound t (ControlPc.entered_of_cleans hc)
    exact (h t ht).2 _ hc ho hk

/-- The claims on an index stay settled in every step that takes and writes its keys uncontested. -/
lemma settled_of_keyMove {V : IndexView κ ω} (hw : w.Coherent) (he : w.Emptied)
    (hS : (w.claims V).Settled) {a : Action} {i : SessionRef} {np : NewProxy} {r : RegisterPc}
    {next : RegisterNext} (hwt : WritesTables env w w' a i np r next) {taken : κ → Prop}
    {written : κ → ω → Prop} (hm : KeyMove V w w' i taken written)
    (htake : ∀ k, taken k → w.KeyUnwritten V i k)
    (hwrite : ∀ k v, written k v → w.KeyWritable V i k v ∧
      (w.core.Live i → ∀ v', V.entry w.core i k = some v' → v' = v)) :
    (w'.claims V).Settled := by
  have hlive : ∀ j, w'.core.Live j → w.core.Live j :=
    fun j hl => (hwt.reg.sameRegistry.live j).mp hl
  have hquiet : V.unwritten (w.control i).pc = [] →
      ∀ j k, (w.claims V).writing j k → (w'.claims V).writing j k := by
    intro hnil j k
    refine hwt.writing V fun hk => ?_
    rw [← hwt.pc, hnil] at hk
    cases hk
  cases hm with
  | keep hentry hindex hnil =>
    exact hS.quiet (.keep (fun j _ _ hl _ => hlive j hl)
      (fun j k v hv => (hentry j k).symm.trans hv) hindex (fun o k => hwt.doomed V) (hquiet hnil))
  | take hentry hindex hnil =>
    refine hS.take i hlive (fun j k v hv => ?_) hindex (fun o k => hwt.doomed V) (hquiet hnil)
    exact (hentry j k v hv).imp id fun ⟨hj, hk, hun⟩ => ⟨hj, (htake k hk).claims hw he, hj ▸ hun⟩
  | write k v hk hentry hself hindex hrest =>
    obtain ⟨⟨hfree, hagreed⟩, hown⟩ := hwrite k v hk
    refine hS.write i k v hlive hentry (fun hl => ⟨(hfree hl).claims hw he, hown hl⟩)
      (fun j v' hj hl hv => ?_) hself hindex (fun o k => hwt.doomed V) fun j k' hne hk' => ?_
    · change V.entry w.core j k = some v' at hv
      by_cases hlt : j < w.controlCount
      · rcases hagreed j hlt hj hl with hnone | hun | hsome
        · rw [hnone] at hv; cases hv
        · exact .inl hun
        · rw [hsome] at hv; exact .inr (Option.some.inj hv).symm
      · rw [entry_of_fresh V hw he hlt] at hv
        cases hv
    · by_cases hj : j = i
      · subst hj
        exact hwt.writing V (fun _ => hrest k' hk' (hne.resolve_left fun hn => hn rfl)) hk'
      · change k' ∈ V.unwritten (w.control j).pc at hk'
        change k' ∈ V.unwritten (w'.control j).pc
        rwa [hwt.other j hj]

/-! ## What was registered and answered -/

/-- No registration of the session was for the name of this one. -/
def NameFresh (w : World) (i : SessionRef) (np : NewProxy) : Prop :=
  w.core.Live i → ∀ np', .registered i np' ∈ w.log → np'.proxyName ≠ np.proxyName

/-- What a registration knows about its name at each section. -/
def NameProgress (w : World) (i : SessionRef) (np : NewProxy) : RegisterPc → Prop
  | .limit => True
  | .name => True
  | .indexProxy => w.NameFresh i np ∧ (w.core.Live i → w.core.Holds i np.proxyName)
  | _ => w.NameFresh i np

/-- Registrations under way know their names, and a name that was registered is in the table. -/
structure NamesTracked (w : World) : Prop where
  progress : ∀ i np r, (w.control i).pc = .registering np r → w.NameProgress i np r
  registered : ∀ i np, .registered i np ∈ w.log →
    w.Entered i ∧ (w.core.Live i → w.core.Holds i np.proxyName)

/-- On a new server nothing is being registered. -/
lemma NamesTracked.of_new : World.new.NamesTracked where
  progress i np r h := by cases h
  registered i np h := by cases h

/-- A session holds the name it inserts besides those it has. -/
lemma holds_insertProxy {st : ServerState} {s : SessionRef} {np : NewProxy} {handle : ListenerRef}
    {domains : List Domain} {n : ProxyName} :
    (st.insertProxy s np handle domains).Holds s n ↔ n = np.proxyName ∨ st.Holds s n := by
  unfold Holds ServerState.insertProxy
  rw [modifySession_sessionAt_self]
  dsimp only
  rw [HashMap.get_insert]
  split
  · next hn => simp [hn]
  · next hn => simp [hn]

/-- Progress depends on the table of the session, on its being live, and on its registrations. -/
lemma NameProgress.congr {i : SessionRef} {np : NewProxy} {r : RegisterPc}
    (hp : w.NameProgress i np r) (hlive : w'.core.Live i → w.core.Live i)
    (hholds : w'.core.Live i → w.core.Holds i np.proxyName → w'.core.Holds i np.proxyName)
    (hlog : ∀ np', .registered i np' ∈ w'.log → .registered i np' ∈ w.log) :
    w'.NameProgress i np r := by
  have hfresh : w.NameFresh i np → w'.NameFresh i np :=
    fun hf hl np' hmem => hf (hlive hl) np' (hlog np' hmem)
  cases r with
  | limit => trivial
  | name => trivial
  | indexProxy => exact ⟨hfresh hp.1, fun hl => hholds hl (hp.2 (hlive hl))⟩
  | _ => exact hfresh hp

/-- After the check of the name a registration knows that its name is fresh. -/
lemma nameFresh_of_progress {i : SessionRef} {np : NewProxy} {r : RegisterPc}
    (hp : w.NameProgress i np r) (hr : r ≠ .limit ∧ r ≠ .name) : w.NameFresh i np := by
  cases r with
  | limit => exact absurd rfl hr.1
  | name => exact absurd rfl hr.2
  | indexProxy => exact hp.1
  | _ => exact hp

/-- Every section of a registration keeps its progress. -/
lemma nameProgress_of_register (hN : w.NamesTracked) {i : SessionRef} {np : NewProxy}
    {r r' : RegisterPc} (hpc : (w.control i).pc = .registering np r)
    (hreg : RegisterCase env w.core i np r w'.core (.goto r')) (hlog : w'.log = w.log) :
    w'.NameProgress i np r' := by
  have hprog := hN.progress i np r hpc
  have hlive := (hreg.sameRegistry.live i).mp
  have hfresh : r ≠ .limit ∧ r ≠ .name → w'.NameFresh i np := by
    intro hr hl np' hmem
    rw [hlog] at hmem
    exact nameFresh_of_progress hprog hr (hlive hl) np' hmem
  generalize hcore : w'.core = st' at hreg hlive
  cases hreg with
  | limit => trivial
  | name hfree =>
    intro hl np' hmem heq
    rw [hcore] at hl
    rw [hlog] at hmem
    exact hfree (heq ▸ (hN.registered i np' hmem).2 hl)
  | opening _ _ _ _ _ hr hr' =>
    have hf := hfresh (by rcases hr with rfl | rfl | rfl <;> exact ⟨nofun, nofun⟩)
    rcases hr' with rfl | rfl | ⟨handle, rfl⟩
    · exact hf
    · exact hf
    · unfold RegisterPc.tables
      split <;> exact hf
  | insertProxy handle =>
    refine ⟨hfresh ⟨nofun, nofun⟩, fun _ => ?_⟩
    rw [hcore]
    exact holds_insertProxy.mpr (.inl rfl)
  | _ => exact hfresh ⟨nofun, nofun⟩

/-- A live session loses no name of its table. -/
lemma holds_of_step (hw : w.Coherent) {a : Action} (h : step env w a = some w') {i : SessionRef}
    (hi : w.Entered i) (hl : w'.core.Live i) {n : ProxyName} (hn : w.core.Holds i n) :
    w'.core.Holds i n := by
  rcases (tablesOf_of_step hw h hi hl).proxies with heq | ⟨_, np, handle, -, -, hcore⟩
  · unfold Holds
    rw [heq]
    exact hn
  · rw [hcore]
    exact holds_insertProxy.mpr (.inr hn)

/-- Every step keeps track of the names of registrations. -/
lemma NamesTracked.step (hw : w.Coherent) (hN : w.NamesTracked) {a : Action}
    (h : step env w a = some w') : w'.NamesTracked where
  progress i np r' hpc' := by
    rcases registering_cases h hpc' with ⟨hpc, ha⟩ | rfl | ⟨r, hpc, hlog, hreg⟩
    · have hi := entered_of_registering hpc
      exact (hN.progress i np r' hpc).congr (hw.live_of_step h hi)
        (fun hl => holds_of_step hw h hi hl) fun np' => registered_of_other h ha
    · trivial
    · exact nameProgress_of_register hN hpc hreg hlog
  registered i np hmem := by
    obtain ⟨es, hlog, hes⟩ := registered_of_step h
    rw [hlog, List.mem_append] at hmem
    rcases hmem with hmem | hmem
    · obtain ⟨hi, hold⟩ := hN.registered i np hmem
      exact ⟨hw.entered_of_step h hi,
        fun hl => holds_of_step hw h hi hl (hold (hw.live_of_step h hi hl))⟩
    · rcases hes with hnone | ⟨j, outcome, np', -, hpc, rfl, -, hpc'⟩
      · exact absurd hmem (hnone i np)
      · cases List.mem_singleton.mp hmem
        have hi := entered_of_registering hpc
        exact ⟨hw.entered_of_step h hi, fun hl =>
          holds_of_step hw h hi hl ((hN.progress i np _ hpc).2 (hw.live_of_step h hi hl))⟩

/-- A proxy that was registered for a live session resolves to it. -/
lemma NamesTracked.sessionForProxy (hN : w.NamesTracked) (hS : (w.claims nameView).Settled)
    {i : SessionRef} {np : NewProxy} (hmem : .registered i np ∈ w.log) (hl : w.core.Live i) :
    w.core.sessionForProxy np.proxyName = some i := by
  have hhold := (hN.registered i np hmem).2 hl
  have hindex : w.core.proxyIndex.get np.proxyName = some (w.core.sessionAt i).runId := by
    refine hS.resolves hl (nameView_entry.mpr ⟨rfl, hhold⟩) fun hwriting => ?_
    change np.proxyName ∈ (w.control i).pc.unwrittenNames at hwriting
    unfold ControlPc.unwrittenNames at hwriting
    split at hwriting
    · next np' hpc =>
      exact (hN.progress i np' _ hpc).1 hl np hmem (List.mem_singleton.mp hwriting)
    · cases hwriting
  unfold ServerState.sessionForProxy
  rw [hindex]
  exact hl

/-- A successful answer is on its way, or was sent, only to a registration that has succeeded. -/
structure Answered (w : World) : Prop where
  responding : ∀ i np, (w.control i).pc = .responding np none → .registered i np ∈ w.log
  responded : ∀ i np resp, .responded i np resp ∈ w.log → resp.ok = true →
    .registered i np ∈ w.log

/-- A new server has answered nothing. -/
lemma Answered.of_new : World.new.Answered where
  responding i np h := by cases h
  responded i np resp h := by cases h

/-- A step of a control task answers with success only what it has registered. -/
lemma answered_of_control {st st' : ServerState} {i : SessionRef} {c : ControlChoice}
    {p p' : ControlPc} {es : List Event} (h : ControlCase env st i c p st' p' es) :
    (∀ np, p' = .responding np none → .registered i np ∈ es) ∧
      ∀ j np resp, .responded j np resp ∈ es → resp.ok = true → j = i ∧ p = .responding np none := by
  have hnone : ∀ j np resp, Event.responded j np resp ∈ ([] : List Event) → resp.ok = true →
      j = i ∧ p = .responding np none := fun j np resp hmem => absurd hmem List.not_mem_nil
  cases h with
  | login _ _ _ _ _ he' =>
    refine ⟨?_, hnone⟩
    rintro np rfl
    cases he'
  | swap l =>
    refine ⟨fun np hpc => ?_, by simp⟩
    cases hget : st.sessions.get l.runId <;> rw [hget] at hpc <;> cases hpc
  | cleanup _ o c hc =>
    refine ⟨fun np hpc => ?_, fun j np resp hmem => ?_⟩
    · cases p with
      | replacing => cases hnext : (cleanupStep st o c).2.1 <;> rw [hnext] at hpc <;> cases hpc
      | cleaning => cases hnext : (cleanupStep st o c).2.1 <;> rw [hnext] at hpc <;> cases hpc
      | _ => cases hc
    · cases c with
      | notify => simp [cleanupStep] at hmem
      | drainPools => obtain ⟨_, _, he⟩ := List.mem_map.mp hmem; cases he
      | retainPending => obtain ⟨_, _, he⟩ := List.mem_map.mp hmem; cases he
      | _ => cases hmem
  | loop _ _ _ _ hmove => exact ⟨fun np hpc => (by rw [hpc] at hmove; cases hmove), hnone⟩
  | frame f =>
    refine ⟨fun np hpc => ?_, by simp⟩
    unfold InFrame.next at hpc
    split at hpc
    · split at hpc <;> cases hpc
    all_goals cases hpc
  | register => exact ⟨fun np hpc => (by cases hpc), hnone⟩
  | registerRefused => exact ⟨fun np hpc => (by cases hpc), hnone⟩
  | registerOk np =>
    refine ⟨fun np' hpc => ?_, by simp⟩
    cases hpc
    exact List.mem_singleton.mpr rfl
  | responded np error =>
    refine ⟨fun np' hpc => (by cases hpc), fun j np' resp hmem hok => ?_⟩
    cases List.mem_singleton.mp hmem
    exact ⟨rfl, by rw [Option.isNone_iff_eq_none.mp hok]⟩
  | unregister => exact ⟨fun np hpc => (by cases hpc), by simp⟩

/-- A successful answer is given only after the registration has succeeded. -/
lemma Answered.step (hA : w.Answered) {a : Action} (h : step env w a = some w') : w'.Answered := by
  cases step_cases h with
  | other _ _ hpc _ _ _ es hlog hes =>
    refine ⟨fun i np hp => ?_, fun i np resp hmem hok => ?_⟩
    · rw [hlog, hpc] at *
      exact List.mem_append_left _ (hA.responding i np hp)
    · rw [hlog, List.mem_append] at *
      exact .inl (hA.responded i np resp (hmem.resolve_right fun he => by cases hes _ he) hok)
  | login _ _ _ hpc hother _ _ hlog =>
    refine ⟨fun i np hp => ?_, fun i np resp hmem hok => ?_⟩
    · rw [hlog]
      by_cases hi : i = w.controlCount
      · rw [hi, hpc] at hp; cases hp
      · rw [hother i hi] at hp; exact hA.responding i np hp
    · rw [hlog] at hmem ⊢
      exact hA.responded i np resp hmem hok
  | control k c es _ _ hcase hother _ _ hlog =>
    obtain ⟨hresponding, hresponded⟩ := answered_of_control hcase
    refine ⟨fun i np hp => ?_, fun i np resp hmem hok => ?_⟩
    · rw [hlog, List.mem_append]
      by_cases hi : i = k
      · rw [hi] at hp ⊢; exact .inr (hresponding np hp)
      · rw [hother i hi] at hp; exact .inl (hA.responding i np hp)
    · rw [hlog, List.mem_append] at hmem ⊢
      rcases hmem with hmem | hmem
      · exact .inl (hA.responded i np resp hmem hok)
      · obtain ⟨rfl, hpc⟩ := hresponded i np resp hmem hok
        exact .inl (hA.responding i np hpc)

/-! ## The main result -/

/-- The claims on both indexes are settled, and the registrations and answers are tracked. -/
structure ReplacementInv (env : Env) (w : World) : Prop where
  coherent : w.Coherent
  emptied : w.Emptied
  names : (w.claims nameView).Settled
  domains : (w.claims domainView).Settled
  namesTracked : w.NamesTracked
  domainsTracked : w.DomainsTracked env
  answered : w.Answered

/-- A new server satisfies the invariant. -/
lemma ReplacementInv.of_new : World.new.ReplacementInv env where
  coherent := .of_new
  emptied := .of_new
  names := ⟨fun i k v _ h => (by cases h), fun i k v _ h => (by cases h)⟩
  domains := ⟨fun i k v _ h => (by cases h), fun i k v _ h => (by cases h)⟩
  namesTracked := .of_new
  domainsTracked := DomainsOwned.of_new.tracked
  answered := .of_new

/-- Every step that meets the condition keeps the invariant. -/
lemma ReplacementInv.step (hI : w.ReplacementInv env) {a : Action} (h : step env w a = some w')
    (hC : Uncontested env w a) : w'.ReplacementInv env := by
  obtain ⟨hw, he, hnames, hdomains, hN, hD, hA⟩ := hI
  have hnames' : (w'.claims nameView).Settled := by
    rcases claims_cases nameView hw h with hquiet | ⟨i, np, r, next, hwt⟩
    · exact hnames.quiet hquiet
    obtain ⟨outcome, ha⟩ := hwt.action
    obtain ⟨⟨htake, hwrite⟩, -⟩ := hC i (by rw [ha]; rfl)
    refine settled_of_keyMove hw he hnames hwt hwt.nameMove ?_ ?_
    · rintro n ⟨np', hnp, rfl⟩
      exact htake np' hnp
    · rintro n v ⟨np', hnp, rfl, rfl⟩
      exact ⟨hwrite np' hnp, fun _ v' hv => (nameView_entry.mp hv).1⟩
  have hdomains' : (w'.claims domainView).Settled := by
    rcases claims_cases domainView hw h with hquiet | ⟨i, np, r, next, hwt⟩
    · exact hdomains.quiet hquiet
    obtain ⟨outcome, ha⟩ := hwt.action
    obtain ⟨-, htake, hwrite⟩ := hC i (by rw [ha]; rfl)
    refine settled_of_keyMove hw he hdomains hwt hwt.domainMove ?_ ?_
    · rintro d ⟨np', hnp, hd⟩
      exact htake np' hnp d hd
    · rintro d v ⟨⟨np', _⟩, hx, rfl, rfl⟩
      refine ⟨hwrite _ hx, fun hl v' hv => ?_⟩
      obtain ⟨handle, rest, hpc⟩ := ControlPc.of_writesDomain hx
      obtain ⟨hsub, hwritten⟩ := hD.progress i np' _ hpc
      obtain ⟨hrun, hget⟩ := domainView_entry.mp hv
      rw [(hwritten hl d (hsub List.mem_cons_self)).1] at hget
      exact Prod.ext hrun (Option.some.inj hget).symm
  exact {
    coherent := hw.step h
    emptied := he.step hw h
    names := hnames'
    domains := hdomains'
    namesTracked := hN.step hw h
    domainsTracked := {
      resolves := fun i d n hl hn hun =>
        hdomains'.resolves hl (domainView_entry.mpr ⟨rfl, hn⟩) hun
      progress := progress_step hw hD h
      registered := registered_step hw hD h }
    answered := hA.step h }

/-- Once the control task of a session that was replaced has ended, every proxy for which the session
that has replaced it was sent a successful answer, and every domain of such a proxy, resolves to it, as
long as it is live. -/
def ReplacementKept (env : Env) (w : World) : Prop :=
  ∀ r o i, .swapped r i (some o) ∈ w.log → (w.control o).pc = .returned → w.core.Live i →
    ∀ np resp, .responded i np resp ∈ w.log → resp.ok = true →
      w.core.sessionForProxy np.proxyName = some i ∧
        ∀ d ∈ registerDomains env np, w.core.sessionForDomain d = some (i, np.proxyName)

/-- Along every run whose registrations take and write their keys uncontested, what a replacing session
has registered stays its own after the session it has replaced has ended. -/
theorem replacement_kept (env : Env) (as : List Action)
    (hC : Exec.Guarded (step env) (Uncontested env) .new as) :
    Exec.Always (step env) (ReplacementKept env) .new as := by
  refine Exec.always_of_guarded (I := ReplacementInv env) (fun w a w' hC hI h => hI.step h hC)
    (fun w hI => ?_) .of_new hC
  intro r o i _ _ hl np resp hmem hok
  have hregistered := hI.answered.responded i np resp hmem hok
  exact ⟨hI.namesTracked.sessionForProxy hI.names hregistered hl,
    fun d hd => hI.domainsTracked.sessionForDomain hregistered hl hd⟩


/-- The logins of a client and of the client that takes its place. -/
def replacedLogin : List Action :=
  loginSteps 0 "7f6b5e0e-2f3c-4c9a-9d53-0a4d5f1c0001" "a1f0a3c6-55a1-4b0e-8a3b-2f6d0c9e0001"
    "c2d1b4d7-66b2-4c1f-9b4c-3f7e1dad0001" 0

@[inherit_doc replacedLogin]
def replacingLogin : List Action :=
  loginSteps 1 "7f6b5e0e-2f3c-4c9a-9d53-0a4d5f1c0001" "a1f0a3c6-55a1-4b0e-8a3b-2f6d0c9e0002"
    "c2d1b4d7-66b2-4c1f-9b4c-3f7e1dad0002" 10

/-- A control task registers an HTTP proxy, and a control task that has left its loop ends. -/
def registerWeb (i : SessionRef) : List Action :=
  newProxyStep i (System.httpProxy "web-a" "a.example.com") :: registerSteps i 9

@[inherit_doc registerWeb]
def endSteps (i : SessionRef) : List Action := List.replicate 12 (.control i .go)

/-- A client is replaced while it registers a proxy.  Its registration goes on, in turns with one of the
new session for another proxy; then the old task ends, and the new session registers the first proxy
too. -/
def inFlightReplacementRun : List Action :=
  replacedLogin ++ [newProxyStep 0 (System.httpProxy "web-a" "a.example.com")] ++
  registerSteps 0 3 ++ replacingLogin ++
  [newProxyStep 1 (System.httpProxy "web-b" "b.example.com")] ++
  (List.replicate 6 (registerSteps 1 1 ++ registerSteps 0 1)).flatten ++ registerSteps 1 3 ++
  [.control 1 (.sent true), .control 0 (.sent false), .control 1 .go] ++ endSteps 0 ++
  registerWeb 1 ++ [.control 1 (.sent true)]

/-- Both proxies and their domains resolve to the new session. -/
theorem replacement_kept_in_flight :
    (∃ w, Exec.run (step System.sampleEnv) .new inFlightReplacementRun = some w ∧
      (w.control 0).pc = .returned ∧
      .registered 0 (System.httpProxy "web-a" "a.example.com") ∈ w.log ∧
      w.core.sessionForProxy "web-b" = some 1 ∧
      w.core.sessionForDomain "b.example.com" = some (1, "web-b") ∧
      w.core.sessionForProxy "web-a" = some 1 ∧
      w.core.sessionForDomain "a.example.com" = some (1, "web-a")) ∧
    Exec.Always (step System.sampleEnv) (ReplacementKept System.sampleEnv) .new
      inFlightReplacementRun := by
  refine ⟨?_, replacement_kept System.sampleEnv inFlightReplacementRun (by decide)⟩
  have hold : (Exec.run (step System.sampleEnv) .new inFlightReplacementRun).map (fun w =>
      (decide ((w.control 0).pc = .returned),
        decide (.registered 0 (System.httpProxy "web-a" "a.example.com") ∈ w.log))) =
      some (true, true) := by
    decide
  have hfor : (Exec.run (step System.sampleEnv) .new inFlightReplacementRun).map (fun w =>
      ((w.core.sessionForProxy "web-b", w.core.sessionForDomain "b.example.com"),
        w.core.sessionForProxy "web-a", w.core.sessionForDomain "a.example.com")) =
      some ((some 1, some (1, "web-b")), some 1, some (1, "web-a")) := by
    decide
  obtain ⟨w, hrun, hw⟩ := Option.map_eq_some_iff.mp hold
  rw [hrun, Option.map_some] at hfor
  simp only [Prod.mk.injEq, decide_eq_true_eq, Option.some.injEq] at hw hfor
  exact ⟨w, hrun, hw.1, hw.2, hfor.1.1, hfor.1.2, hfor.2⟩

/-- A client is replaced after its registration has found the domain free; the new session registers the
proxy, the old registration goes on, and the old task ends since its answer cannot be sent. -/
def busyReplacementRun : List Action :=
  replacedLogin ++ [newProxyStep 0 (System.httpProxy "web-a" "a.example.com")] ++
  registerSteps 0 3 ++ replacingLogin ++ registerWeb 1 ++ [.control 1 (.sent true)] ++
  registerSteps 0 6 ++ [.control 0 (.sent false)] ++ endSteps 0

/-- The cleanup of the old session takes the proxy and the domain from the new one. -/
theorem replaced_session_takes_proxy :
    (∃ w, Exec.run (step System.sampleEnv) .new busyReplacementRun = some w ∧
      (w.control 0).pc = .returned ∧ w.core.Live 1 ∧
      .responded 1 (System.httpProxy "web-a" "a.example.com") ⟨"web-a", true, none⟩ ∈ w.log ∧
      w.core.sessionForProxy "web-a" = none ∧ w.core.sessionForDomain "a.example.com" = none) ∧
    ¬Exec.Always (step System.sampleEnv) (ReplacementKept System.sampleEnv) .new
      busyReplacementRun := by
  have hobs : (Exec.run (step System.sampleEnv) .new busyReplacementRun).map (fun w =>
      (decide ((w.control 0).pc = .returned ∧ w.core.Live 1),
        decide (.swapped "7f6b5e0e-2f3c-4c9a-9d53-0a4d5f1c0001" 1 (some 0) ∈ w.log),
        decide (.responded 1 (System.httpProxy "web-a" "a.example.com") ⟨"web-a", true, none⟩ ∈
          w.log),
        (w.core.sessionForProxy "web-a").isNone,
        (w.core.sessionForDomain "a.example.com").isNone)) =
      some (true, true, true, true, true) := by
    decide
  obtain ⟨w, hrun, hw⟩ := Option.map_eq_some_iff.mp hobs
  simp only [Prod.mk.injEq, decide_eq_true_eq, Option.isNone_iff_eq_none] at hw
  obtain ⟨⟨hpc, hl⟩, hswapped, hresponded, hproxy, hdomain⟩ := hw
  refine ⟨⟨w, hrun, hpc, hl, hresponded, hproxy, hdomain⟩, Exec.not_always_of_run hrun fun hP => ?_⟩
  have hkept := (hP _ 0 1 hswapped hpc hl _ _ hresponded rfl).1
  rw [show w.core.sessionForProxy (System.httpProxy "web-a" "a.example.com").proxyName = none
    from hproxy] at hkept
  cases hkept

end World

end Rfrp
