import Rfrp.Server.System
import Rfrp.Server.World

/-!
# The balance of a pool

A user connection that is served from the pool of its proxy takes a work connection away, and
`dispatch_user_connection` asks the client for another one (`ReqWorkConn` with the work id 0).
`pop_live_pooled` may take more than this one: it goes on until it finds a connection that is alive.
`PoolTraffic` keeps, beside the server, which pools connections were taken out of and what the clients were
asked for.  There is room in every control channel, so that a request that the code makes is sent.

No request is made for a connection that is found dead.  `balanced_iff` states that the requests make up for
what was taken, along a run of the whole server, exactly when no dispatch takes out a dead connection.
-/

namespace Rfrp

/-- A pool: the session and the name of the proxy. -/
abbrev PoolKey := SessionRef × ProxyName

namespace DataTask

/-- The pool that the lock section of `pop_live_pooled` takes a connection out of. -/
def takes (st : ServerState) : DataTask → Option PoolKey
  | .pop s name _ => (st.popPooled s name).2.map fun _ => (s, name)
  | _ => none

/-- The pool that the connection of `probe_alive` comes from. -/
def probing : DataTask → Option PoolKey
  | .probe s name _ _ => some (s, name)
  | _ => none

/-- The message that a pool hit puts into the control channel of its session. -/
def replenishes : DataTask → DataChoice → Option (SessionRef × ReqWorkConn)
  | .probe s name _ _, .alive true => some (s, ⟨name, workIdPoolReserved⟩)
  | _, _ => none

/-- The pool whose connection is discarded. -/
def discards : DataTask → DataChoice → Option PoolKey
  | .probe s name _ _, .alive false => some (s, name)
  | _, _ => none

end DataTask

/-- The server, what was taken out of its pools, and what it has asked its clients for. -/
structure PoolTraffic where
  world : World
  taken : List PoolKey
  requests : List (SessionRef × ReqWorkConn)

namespace PoolTraffic

open World (Action)

/-- A server to which nobody has connected. -/
def new : PoolTraffic := ⟨.new, [], []⟩

/-- The task that an action is a step of, with its choice. -/
def task (x : PoolTraffic) : Action → Option (DataTask × DataChoice)
  | .data k c => x.world.data[k]?.map fun t => (t, c)
  | _ => none

/-- One step of the server, with what it takes and what it asks for. -/
def step (env : Env) (x : PoolTraffic) (a : Action) : Option PoolTraffic :=
  (x.world.step env a).map fun w =>
    { world := w
      taken := x.taken ++ ((x.task a).bind fun t => t.1.takes x.world.core).toList
      requests := x.requests ++ ((x.task a).bind fun t => t.1.replenishes t.2).toList }

/-- The connections of a pool that are being probed. -/
def held (x : PoolTraffic) (p : PoolKey) : ℕ := x.world.data.countP fun t => t.probing = some p

/-- The client was asked for as many connections of a pool as were taken out of it and handed to a user or
discarded; those that are being probed are not yet either. -/
def Balanced (p : PoolKey) (x : PoolTraffic) : Prop :=
  x.requests.count (p.1, ⟨p.2, workIdPoolReserved⟩) + x.held p = x.taken.count p

instance (p : PoolKey) (x : PoolTraffic) : Decidable (Balanced p x) :=
  inferInstanceAs (Decidable (_ = _))

/-- A dispatch finds the connection dead that it has taken out of a pool. -/
def FindsDead (p : PoolKey) (x : PoolTraffic) (a : Action) : Prop :=
  ((x.task a).bind fun t => t.1.discards t.2) = some p

end PoolTraffic

/-! ## One section of a dispatch -/

/-- Whether an optional pool is this one, as a number. -/
def hits (o : Option PoolKey) (p : PoolKey) : ℕ := o.toList.count p

/-- No connection was taken. -/
@[simp] lemma hits_none (p : PoolKey) : hits none p = 0 := rfl

/-- A connection was taken from its own pool only. -/
lemma hits_some (q p : PoolKey) : hits (some q) p = if q = p then 1 else 0 := by
  unfold hits
  rw [Option.toList_some, List.count_singleton]
  simp

namespace DataTask

variable {st st' : ServerState} {t t' : DataTask} {c : DataChoice} {es : List Event}

/-- The requests of a section for a pool. -/
lemma count_replenishes (t : DataTask) (c : DataChoice) (p : PoolKey) :
    (t.replenishes c).toList.count (p.1, ⟨p.2, workIdPoolReserved⟩) =
      if t.replenishes c = some (p.1, ⟨p.2, workIdPoolReserved⟩) then 1 else 0 := by
  cases t.replenishes c with
  | none => rfl
  | some m => simp [List.count_singleton]

/-- A connection that a section takes out of a pool is being probed after it, and one that was being probed
is asked for again or discarded. -/
lemma step_probing (h : t.step st c = some (st', t', es)) (p : PoolKey) :
    hits t'.probing p + (t.replenishes c).toList.count (p.1, ⟨p.2, workIdPoolReserved⟩) +
      hits (t.discards c) p = hits t.probing p + hits (t.takes st) p := by
  unfold step at h
  split at h
  · split at h <;> cases h <;> rfl
  · cases h
    rfl
  · next s name user =>
    cases hpop : st.popPooled s name with
    | mk st₁ work =>
      rw [hpop] at h
      dsimp only [takes]
      rw [hpop]
      cases work with
      | some work =>
        cases h
        simp [probing, replenishes, discards]
      | none =>
        cases h
        rfl
  · next s name user work =>
    cases h
    rw [count_replenishes]
    simp [probing, takes, replenishes, discards, hits_some, Prod.ext_iff]
  · cases h
    simp [probing, takes, replenishes, discards]
  · cases h
    rfl
  · cases h
    rfl
  · cases h
    split <;> rfl
  · cases h
    rfl
  · cases h
    rfl
  · cases h
    split <;> rfl
  · split at h
    · cases h
      rfl
    · split at h <;> cases h <;> rfl
  · split at h
    · split at h <;> cases h <;> rfl
    · split at h <;> cases h <;> rfl
  · split at h <;> cases h <;> rfl
  · split at h <;> cases h <;> rfl
  · split at h
    · split at h <;> cases h <;> rfl
    · cases h
      rfl
  · cases h
    rfl
  · cases h
    rfl
  · cases h

end DataTask

/-! ## One step of the server -/

namespace World

/-- The tasks after a step: one of them has taken a step, or there are new ones, none of which is probing a
connection. -/
lemma data_step {env : Env} {w w' : World} {a : Action} (h : w.step env a = some w') :
    (∃ k c t t' st es, a = .data k c ∧ w.data[k]? = some t ∧
      t.step w.core c = some (st, t', es) ∧ w'.data = w.data.set k t') ∨
    ((∀ k c, a ≠ .data k c) ∧
      ∃ more, w'.data = w.data ++ more ∧ ∀ t ∈ more, DataTask.probing t = none) := by
  have hsame : (∀ k c, a ≠ .data k c) → w'.data = w.data →
      (∀ k c, a ≠ .data k c) ∧
        ∃ more, w'.data = w.data ++ more ∧ ∀ t ∈ more, DataTask.probing t = none := by
    intro ha hdata
    exact ⟨ha, [], by rw [hdata, List.append_nil], fun t ht => absurd ht List.not_mem_nil⟩
  have hnew : ∀ t, (∀ k c, a ≠ .data k c) → w'.data = w.data ++ [t] → DataTask.probing t = none →
      (∀ k c, a ≠ .data k c) ∧
        ∃ more, w'.data = w.data ++ more ∧ ∀ t ∈ more, DataTask.probing t = none := by
    intro t ha hdata ht
    exact ⟨ha, [t], hdata, fun t' ht' => by rwa [List.mem_singleton.mp ht']⟩
  cases a with
  | data k c =>
    left
    unfold step dataStep at h
    dsimp only at h
    split at h
    · cases h
    · next t ht =>
      split at h
      · cases h
      · obtain ⟨⟨st, t', es⟩, hstep, rfl⟩ := Option.map_eq_some_iff.mp h
        exact ⟨k, c, t, t', st, es, rfl, ht, hstep, rfl⟩
  | tick ms =>
    cases h
    exact .inr (hsame (fun k c hdata => by cases hdata) rfl)
  | shutdown =>
    cases h
    exact .inr (hsame (fun k c hdata => by cases hdata) rfl)
  | login first ip =>
    cases h
    exact .inr (hsame (fun k c hdata => by cases hdata) rfl)
  | control i c =>
    refine .inr (hsame (fun k c hdata => by cases hdata) ?_)
    unfold step controlStep at h
    dsimp only at h
    split at h
    · cases h
    · obtain ⟨uuids, -, h⟩ := Option.bind_eq_some_iff.mp h
      obtain ⟨r, -, rfl⟩ := Option.map_eq_some_iff.mp h
      rfl
  | writer i c =>
    obtain ⟨r, -, rfl⟩ := Option.map_eq_some_iff.mp h
    exact .inr (hsame (fun k c hdata => by cases hdata) rfl)
  | connect s name =>
    unfold step at h
    dsimp only at h
    split at h
    · cases h
      exact .inr (hnew _ (fun k c hdata => by cases hdata) rfl rfl)
    · cases h
  | work frame =>
    cases h
    exact .inr (hnew _ (fun k c hdata => by cases hdata) rfl rfl)
  | sweep timeout =>
    cases h
    exact .inr (hnew _ (fun k c hdata => by cases hdata) rfl rfl)
  | udp p a =>
    obtain ⟨st, -, rfl⟩ := Option.map_eq_some_iff.mp h
    exact .inr (hsame (fun k c hdata => by cases hdata) rfl)

end World

namespace PoolTraffic

open World (Action)

variable {env : Env} {x x' : PoolTraffic} {a : Action}

/-- The number of probes of a pool after a section of one task. -/
lemma countP_probing_set {data : List DataTask} {k : ℕ} {t : DataTask} (h : data[k]? = some t)
    (t' : DataTask) (p : PoolKey) :
    (data.set k t').countP (fun t => t.probing = some p) + hits t.probing p =
      data.countP (fun t => t.probing = some p) + hits t'.probing p := by
  have hhits : ∀ o : Option PoolKey, hits o p = if o = some p then 1 else 0 := fun o => by
    cases o with
    | none => rfl
    | some q => simp [hits_some]
  obtain ⟨hk, ht⟩ := List.getElem?_eq_some_iff.mp h
  have hpos : hits t.probing p ≤ data.countP fun t => t.probing = some p := by
    rw [hhits]
    split
    · next hprobing =>
      refine List.countP_pos_iff.mpr ⟨t, ?_, decide_eq_true hprobing⟩
      rw [← ht]
      exact List.getElem_mem hk
    · exact Nat.zero_le _
  rw [List.countP_set hk, ht]
  rw [hhits] at hpos ⊢
  rw [hhits]
  simp only [decide_eq_true_eq] at hpos ⊢
  omega

/-- What a step changes in the balance of a pool. -/
lemma step_balance (h : step env x a = some x') (p : PoolKey) :
    x'.requests.count (p.1, ⟨p.2, workIdPoolReserved⟩) + x'.held p +
        hits ((x.task a).bind fun t => t.1.discards t.2) p + x.taken.count p =
      x.requests.count (p.1, ⟨p.2, workIdPoolReserved⟩) + x.held p + x'.taken.count p := by
  obtain ⟨w, hstep, rfl⟩ := Option.map_eq_some_iff.mp h
  dsimp only [held]
  rw [List.count_append, List.count_append]
  rcases World.data_step hstep with ⟨k, c, t, t', st, es, rfl, ht, htask, hdata⟩ | ⟨ha, more, hdata, hmore⟩
  · have hset := countP_probing_set ht t' p
    have hprobing := DataTask.step_probing htask p
    have htask' : x.task (.data k c) = some (t, c) := by
      show x.world.data[k]?.map _ = _
      rw [ht, Option.map_some]
    rw [htask', Option.bind_some, Option.bind_some, Option.bind_some, hdata]
    dsimp only
    have htakes : (t.takes x.world.core).toList.count p = hits (t.takes x.world.core) p := rfl
    omega
  · have htask : x.task a = none := by
      cases a with
      | data k c => exact absurd rfl (ha k c)
      | _ => rfl
    have hnone : more.countP (fun t => t.probing = some p) = 0 := by
      refine List.countP_eq_zero.mpr fun t ht hprobing => ?_
      rw [hmore t ht] at hprobing
      simp at hprobing
    rw [htask, Option.bind_none, Option.bind_none, Option.bind_none, hdata, List.countP_append, hnone]
    rfl

/-- A step keeps the balance of a pool exactly when it does not find a connection of the pool dead. -/
lemma balanced_step {p : PoolKey} (hbalanced : x.Balanced p) (h : step env x a = some x') :
    x'.Balanced p ↔ ¬x.FindsDead p a := by
  have hstep := step_balance h p
  unfold Balanced at hbalanced ⊢
  unfold FindsDead
  cases hdiscards : (x.task a).bind fun t => t.1.discards t.2 with
  | none =>
    rw [hdiscards, hits_none] at hstep
    refine ⟨fun _ hsome => ?_, fun _ => ?_⟩
    · cases hsome
    · omega
  | some q =>
    rw [hdiscards, hits_some] at hstep
    rw [Option.some_inj]
    split at hstep
    · next hq =>
      refine ⟨fun hbalanced' => ?_, fun hne => absurd hq hne⟩
      omega
    · next hq =>
      refine ⟨fun _ => hq, fun _ => ?_⟩
      omega

/-- For every pool of every session and along every run of the server: in every state the client was asked
for as many connections as were taken out of the pool and handed to a user or discarded, exactly when no
dispatch has taken out a dead one. -/
theorem balanced_iff (env : Env) (p : PoolKey) (as : List Action) :
    Exec.Always (step env) (Balanced p) new as ↔
      Exec.Guarded (step env) (fun x a => ¬x.FindsDead p a) new as := by
  refine Exec.always_iff_guarded (I := fun _ => True) (fun x a x' _ hbalanced h => ?_) trivial rfl
  exact ⟨balanced_step hbalanced h, fun _ => trivial⟩

/-- A client has registered a proxy and one work connection for its pool; a user connects, and the work
connection turns out to be dead. -/
def deadPooledRun : List Action :=
  World.loginSteps 0 "7f6b5e0e-2f3c-4c9a-9d53-0a4d5f1c0001" "a1f0a3c6-55a1-4b0e-8a3b-2f6d0c9e0001"
    "c2d1b4d7-66b2-4c1f-9b4c-3f7e1dad0001" 0 ++
  [World.newProxyStep 0 ⟨"ssh", .tcp, some 2222, none⟩] ++ World.registerSteps 0 6 ++
  [.work ⟨"ssh", 0, some "c2d1b4d7-66b2-4c1f-9b4c-3f7e1dad0001"⟩, .data 0 .go, .data 0 .go, .data 0 .go,
    .connect 0 "ssh", .data 1 .go, .data 1 .go, .data 1 .go, .data 1 (.alive false), .data 1 .go]

/-- The pool is empty then, and the client was asked for nothing. -/
theorem pool_runs_dry :
    (∃ x, Exec.run (step System.sampleEnv) new deadPooledRun = some x ∧
      ((x.world.core.sessionAt 0).pools.get "ssh") = some [] ∧
      x.taken = [(0, "ssh")] ∧ x.requests = []) ∧
    ¬Exec.Always (step System.sampleEnv) (Balanced (0, "ssh")) new deadPooledRun := by
  have hobs : (Exec.run (step System.sampleEnv) new deadPooledRun).map (fun x =>
      (decide ((x.world.core.sessionAt 0).pools.get "ssh" = some []), decide (x.taken = [(0, "ssh")]),
        decide (x.requests = []), x.held (0, "ssh"))) = some (true, true, true, 0) := by
    decide
  obtain ⟨x, hrun, hx⟩ := Option.map_eq_some_iff.mp hobs
  simp only [Prod.mk.injEq, decide_eq_true_eq] at hx
  obtain ⟨hpool, htaken, hrequests, hheld⟩ := hx
  refine ⟨⟨x, hrun, hpool, htaken, hrequests⟩, Exec.not_always_of_run hrun fun hbalanced => ?_⟩
  unfold Balanced at hbalanced
  rw [hrequests, htaken, hheld] at hbalanced
  simp at hbalanced

end PoolTraffic

end Rfrp
