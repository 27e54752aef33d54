import Mathlib.Data.List.MinMax
import Mathlib.Logic.Relation
import Rfrp.Lib.Exec

/-!
# Locks acquired in order

Tasks of an asynchronous runtime with mutexes.  A task is a program that holds locks for the time of
a block and gives up its worker thread at an `await`; a worker that runs a task waits with it when
the lock it needs is held.  A program is `Ordered` by a rank of the locks when, inside the block of
a lock, it takes only locks of greater rank and does not await.

For ordered programs no tasks wait for each other in a cycle, not even a task for itself
(`no_wait_cycle`), and as long as some task is unfinished the runtime can take a step, with any
number of tasks and at least one worker (`progress`).  The second needs both parts of the order: the
task that a chain of waiting tasks ends in holds a lock, therefore it has not given up its worker.
-/

namespace Rfrp

namespace Locks

variable {ι τ : Type*}

/-! ## Programs -/

/-- A program, as the locks see it. -/
inductive Prog (ι : Type*) where
  | skip
  /-- A point where the task gives up its worker. -/
  | await
  | seq (p q : Prog ι)
  /-- A block with the guard of a lock. -/
  | hold (l : ι) (p : Prog ι)
  | either (p q : Prog ι)
  | loop (p : Prog ι)

/-- In a place where the guards of `held` exist, the program takes locks above them, and awaits only
where there are none. -/
def Prog.Ordered (rank : ι → ℕ) : List ι → Prog ι → Prop
  | _, .skip => True
  | held, .await => held = []
  | held, .seq p q => p.Ordered rank held ∧ q.Ordered rank held
  | held, .hold l p => (∀ h ∈ held, rank h < rank l) ∧ p.Ordered rank (l :: held)
  | held, .either p q => p.Ordered rank held ∧ q.Ordered rank held
  | held, .loop p => p.Ordered rank held

/-- One program after the other. -/
def Prog.all : List (Prog ι) → Prog ι
  | [] => .skip
  | p :: ps => .seq p (all ps)

/-- A block that does nothing but use what the lock guards. -/
def Prog.use (l : ι) : Prog ι := .hold l .skip

/-- The program is run or is not. -/
def Prog.maybe (p : Prog ι) : Prog ι := .either p .skip

section Ordered

variable {rank : ι → ℕ} {held : List ι} {p q : Prog ι} {l : ι}

/-- A program that does nothing keeps the order. -/
@[simp] lemma ordered_skip : (Prog.skip : Prog ι).Ordered rank held := trivial

/-- A program that awaits keeps the order when it holds no lock. -/
@[simp] lemma ordered_await : (Prog.await : Prog ι).Ordered rank held ↔ held = [] := Iff.rfl

/-- A sequence keeps the order when both of its parts do. -/
@[simp] lemma ordered_seq :
    (Prog.seq p q).Ordered rank held ↔ p.Ordered rank held ∧ q.Ordered rank held := Iff.rfl

/-- A lock is taken in the order when it is above all that are held, and the rest keeps the order with it. -/
@[simp] lemma ordered_hold : (Prog.hold l p).Ordered rank held ↔
    (∀ h ∈ held, rank h < rank l) ∧ p.Ordered rank (l :: held) := Iff.rfl

/-- A choice keeps the order when both branches do. -/
@[simp] lemma ordered_either :
    (Prog.either p q).Ordered rank held ↔ p.Ordered rank held ∧ q.Ordered rank held := Iff.rfl

/-- A loop keeps the order when its body does. -/
@[simp] lemma ordered_loop : (Prog.loop p).Ordered rank held ↔ p.Ordered rank held := Iff.rfl

/-- A lock that is used for one statement has to be above all that are held. -/
@[simp] lemma ordered_use : (Prog.use l).Ordered rank held ↔ ∀ h ∈ held, rank h < rank l := by
  simp [Prog.use]

/-- A part that may be left out keeps the order when it does. -/
@[simp] lemma ordered_maybe : p.maybe.Ordered rank held ↔ p.Ordered rank held := by
  simp [Prog.maybe]

/-- A sequence of several parts keeps the order when each of them does. -/
@[simp] lemma ordered_all {ps : List (Prog ι)} :
    (Prog.all ps).Ordered rank held ↔ ∀ p ∈ ps, p.Ordered rank held := by
  induction ps with
  | nil => simp [Prog.all]
  | cons p ps ih => simp [Prog.all, ih]

end Ordered

/-! ## Tasks -/

/-- What a task has still to do: to run a program, or to drop a guard. -/
inductive Frame (ι : Type*) where
  | run (p : Prog ι)
  | drop (l : ι)

/-- The guards that a stack of frames will drop. -/
def held : List (Frame ι) → List ι
  | [] => []
  | .run _ :: k => held k
  | .drop l :: k => l :: held k

/-- The lock a stack goes on with. -/
def wants : List (Frame ι) → Option ι
  | .run (.hold l _) :: _ => some l
  | _ => none

/-- The stack after one step, where `b` decides branches and iterations; no lock is taken here. -/
def next : List (Frame ι) → Bool → List (Frame ι)
  | [], _ => []
  | .drop _ :: k, _ => k
  | .run .skip :: k, _ => k
  | .run .await :: k, _ => k
  | .run (.seq p q) :: k, _ => .run p :: .run q :: k
  | .run (.hold l p) :: k, _ => .run p :: .drop l :: k
  | .run (.either p q) :: k, b => .run (if b then p else q) :: k
  | .run (.loop p) :: k, b => if b then .run p :: .run (.loop p) :: k else k

/-- The next step gives up the worker. -/
def yields : List (Frame ι) → Bool
  | .run .await :: _ => true
  | _ => false

/-- A task with its frames; a task that runs occupies a worker. -/
structure Task (ι : Type*) where
  stack : List (Frame ι)
  running : Bool

/-- The stack of a task whose program is ordered. -/
def StackOrdered (rank : ι → ℕ) : List (Frame ι) → Prop
  | [] => True
  | .run p :: k => p.Ordered rank (held k) ∧ StackOrdered rank k
  | .drop _ :: k => StackOrdered rank k

section Stack

variable {rank : ι → ℕ} {k : List (Frame ι)}

/-- What a task has still to do keeps the order after a step of it. -/
lemma StackOrdered.next (h : StackOrdered rank k) (b : Bool) : StackOrdered rank (next k b) := by
  cases k with
  | nil => trivial
  | cons f k =>
    cases f with
    | drop l => exact h
    | run p =>
      obtain ⟨hp, hk⟩ := h
      cases p with
      | skip => exact hk
      | await => exact hk
      | seq p q => exact ⟨hp.1, hp.2, hk⟩
      | hold l p => exact ⟨hp.2, hk⟩
      | either p q =>
        refine ⟨?_, hk⟩
        split
        · exact hp.1
        · exact hp.2
      | loop p =>
        cases b with
        | true => exact ⟨hp, hp, hk⟩
        | false => exact hk

/-- A lock that is wanted is above those the task holds. -/
lemma StackOrdered.rank_lt (h : StackOrdered rank k) {l : ι} (hl : wants k = some l) :
    ∀ m ∈ held k, rank m < rank l := by
  unfold wants at hl
  split at hl
  · cases hl
    exact h.1.1
  · cases hl

/-- A task that gives up its worker holds nothing. -/
lemma StackOrdered.held_of_yields (h : StackOrdered rank k) (hy : yields k = true) (b : Bool) :
    held (Locks.next k b) = [] := by
  unfold yields at hy
  split at hy
  · exact h.1
  · cases hy

/-- The guards after one step: those of before, and the lock that was wanted. -/
lemma mem_held_next {b : Bool} {l : ι} (h : l ∈ held (next k b)) :
    l ∈ held k ∨ wants k = some l := by
  cases k with
  | nil => exact .inl h
  | cons f k =>
    cases f with
    | drop m => exact .inl (List.mem_cons_of_mem _ h)
    | run p =>
      cases p with
      | hold m p =>
        rcases List.mem_cons.mp h with rfl | h
        · exact .inr rfl
        · exact .inl h
      | loop p =>
        cases b with
        | true => exact .inl h
        | false => exact .inl h
      | _ => exact .inl h

end Stack

/-! ## The runtime -/

/-- The tasks of the runtime. -/
structure Runtime (ι : Type*) where
  tasks : List (Task ι)

namespace Runtime

/-- A runtime without tasks. -/
def new : Runtime ι := ⟨[]⟩

/-- The number of workers that are occupied. -/
def busy (r : Runtime ι) : ℕ := r.tasks.countP Task.running

/-- Task `j` stands still because task `k` has the guard of the lock it wants. -/
def WaitsFor (r : Runtime ι) (j k : ℕ) : Prop :=
  ∃ t u l, r.tasks[j]? = some t ∧ r.tasks[k]? = some u ∧ wants t.stack = some l ∧ l ∈ held u.stack

/-- Some task is not finished. -/
def Unfinished (r : Runtime ι) : Prop := ∃ t ∈ r.tasks, t.stack ≠ []

/-- The stacks are ordered, a task without a worker holds nothing, a finished task has no worker,
and no two tasks have the guard of one lock. -/
structure Inv (rank : ι → ℕ) (r : Runtime ι) : Prop where
  ordered : ∀ t ∈ r.tasks, StackOrdered rank t.stack
  parked : ∀ t ∈ r.tasks, t.running = false → held t.stack = []
  finished : ∀ t ∈ r.tasks, t.running = true → t.stack ≠ []
  exclusive : ∀ (j k : ℕ) (t u : Task ι) (l : ι), r.tasks[j]? = some t → r.tasks[k]? = some u →
    l ∈ held t.stack → l ∈ held u.stack → j = k

section Inv

variable {rank : ι → ℕ} {r : Runtime ι}

/-- A runtime without tasks keeps the order. -/
lemma Inv.of_new : (new : Runtime ι).Inv rank where
  ordered _ h := absurd h List.not_mem_nil
  parked _ h := absurd h List.not_mem_nil
  finished _ h := absurd h List.not_mem_nil
  exclusive _ _ _ _ _ h := by cases h

/-- A new task whose program keeps the order joins the others. -/
lemma Inv.spawn (hI : r.Inv rank) {p : Prog ι} (hp : p.Ordered rank []) :
    Inv rank ⟨r.tasks ++ [⟨[.run p], false⟩]⟩ where
  ordered u hu := by
    rw [List.mem_append, List.mem_singleton] at hu
    rcases hu with hu | rfl
    · exact hI.ordered u hu
    · exact ⟨hp, trivial⟩
  parked u hu := by
    rw [List.mem_append, List.mem_singleton] at hu
    rcases hu with hu | rfl
    · exact hI.parked u hu
    · exact fun _ => rfl
  finished u hu := by
    rw [List.mem_append, List.mem_singleton] at hu
    rcases hu with hu | rfl
    · exact hI.finished u hu
    · exact nofun
  exclusive i j u v l hu hv hlu hlv := by
    have hold : ∀ {i : ℕ} {u : Task ι}, (r.tasks ++ [⟨[.run p], false⟩])[i]? = some u →
        l ∈ held u.stack → r.tasks[i]? = some u := by
      intro i u hu hlu
      rw [List.getElem?_append] at hu
      split at hu
      · exact hu
      · rw [List.mem_singleton.mp (List.mem_of_getElem? hu)] at hlu
        cases hlu
    exact hI.exclusive i j u v l (hold hu hlu) (hold hv hlv) hlu hlv

/-- Along the tasks that wait for each other, the ranks of the wanted locks increase. -/
lemma Inv.rank_lt_of_waits (hI : r.Inv rank) {j k : ℕ} (h : Relation.TransGen r.WaitsFor j k)
    {t u : Task ι} {l m : ι} (ht : r.tasks[j]? = some t) (hl : wants t.stack = some l)
    (hu : r.tasks[k]? = some u) (hm : wants u.stack = some m) : rank l < rank m := by
  induction h generalizing u m with
  | single h =>
    obtain ⟨t', u', l', ht', hu', hl', hheld⟩ := h
    cases ht.symm.trans ht'
    cases hu.symm.trans hu'
    cases hl.symm.trans hl'
    exact (hI.ordered u (List.mem_of_getElem? hu)).rank_lt hm l hheld
  | tail _ h ih =>
    obtain ⟨t', u', l', ht', hu', hl', hheld⟩ := h
    cases hu.symm.trans hu'
    exact (ih ht' hl').trans ((hI.ordered u (List.mem_of_getElem? hu)).rank_lt hm l' hheld)

/-- Tasks that wait for each other wait for locks of higher and higher rank, so no cycle of them is
possible. -/
theorem Inv.no_wait_cycle (hI : r.Inv rank) (k : ℕ) : ¬Relation.TransGen r.WaitsFor k k := by
  intro h
  obtain ⟨j, hkj, -⟩ := Relation.TransGen.head'_iff.mp h
  obtain ⟨t, -, l, ht, -, hl, -⟩ := hkj
  exact Nat.lt_irrefl _ (hI.rank_lt_of_waits h ht hl ht hl)

end Inv

/-! ## Steps -/

/-- The steps of the runtime. -/
inductive Action (τ : Type*) where
  | spawn (t : τ)
  /-- A worker takes up a task. -/
  | resume (k : ℕ)
  | step (k : ℕ) (b : Bool)

variable [DecidableEq ι]

/-- No task has the guard of the lock. -/
def free (r : Runtime ι) (l : ι) : Bool :=
  r.tasks.all fun t => l ∉ held t.stack

/-- A step of task `k`, which is running; it stands still while the lock it wants is held. -/
def taskStep (r : Runtime ι) (k : ℕ) (b : Bool) : Option (Runtime ι) :=
  match r.tasks[k]? with
  | none => none
  | some t =>
    if t.running ∧ t.stack ≠ [] ∧ (∀ l ∈ wants t.stack, r.free l) then
      let stack := next t.stack b
      some ⟨r.tasks.set k ⟨stack, !yields t.stack && !stack.isEmpty⟩⟩
    else
      none

/-- A step of the runtime with `workers` threads, whose tasks run the programs `prog`. -/
def step (prog : τ → Prog ι) (workers : ℕ) (r : Runtime ι) : Action τ → Option (Runtime ι)
  | .spawn t => some ⟨r.tasks ++ [⟨[.run (prog t)], false⟩]⟩
  | .resume k =>
    match r.tasks[k]? with
    | none => none
    | some t =>
      if t.running = false ∧ t.stack ≠ [] ∧ r.busy < workers then
        some ⟨r.tasks.set k { t with running := true }⟩
      else
        none
  | .step k b => r.taskStep k b

variable {rank : ι → ℕ} {r r' : Runtime ι} {prog : τ → Prog ι} {workers : ℕ}

/-- A lock is taken when some task holds it. -/
lemma free_eq_false {l : ι} :
    r.free l = false ↔ ∃ (k : ℕ) (u : Task ι), r.tasks[k]? = some u ∧ l ∈ held u.stack := by
  unfold free
  rw [List.all_eq_false]
  simp only [decide_eq_true_eq, not_not, List.mem_iff_getElem?]
  constructor
  · rintro ⟨u, ⟨k, hk⟩, hl⟩
    exact ⟨k, u, hk, hl⟩
  · rintro ⟨k, u, hk, hl⟩
    exact ⟨u, ⟨k, hk⟩, hl⟩

/-- One task changes, and holds afterwards what it held and what was free. -/
lemma Inv.of_set (hI : r.Inv rank) {k : ℕ} {t t' : Task ι} (ht : r.tasks[k]? = some t)
    (hordered : StackOrdered rank t'.stack) (hparked : t'.running = false → held t'.stack = [])
    (hfinished : t'.running = true → t'.stack ≠ [])
    (hheld : ∀ l ∈ held t'.stack, l ∈ held t.stack ∨ r.free l = true) :
    Inv rank ⟨r.tasks.set k t'⟩ where
  ordered u hu := by
    rcases List.mem_or_eq_of_mem_set hu with hu | rfl
    · exact hI.ordered u hu
    · exact hordered
  parked u hu := by
    rcases List.mem_or_eq_of_mem_set hu with hu | rfl
    · exact hI.parked u hu
    · exact hparked
  finished u hu := by
    rcases List.mem_or_eq_of_mem_set hu with hu | rfl
    · exact hI.finished u hu
    · exact hfinished
  exclusive i j u v l hu hv hlu hlv := by
    have hother : ∀ {i : ℕ} {u : Task ι}, (r.tasks.set k t')[i]? = some u → i ≠ k →
        r.tasks[i]? = some u := by
      intro i u hu hne
      rwa [List.getElem?_set_ne (Ne.symm hne)] at hu
    have hself : ∀ {u : Task ι}, (r.tasks.set k t')[k]? = some u → u = t' := by
      intro u hu
      rw [List.getElem?_set_self (List.getElem?_eq_some_iff.mp ht).1] at hu
      exact (Option.some_inj.mp hu).symm
    have hnew : ∀ {i : ℕ} {u : Task ι}, (r.tasks.set k t')[i]? = some u → l ∈ held u.stack →
        l ∈ held t'.stack → i = k := by
      intro i u hu hlu hlt
      by_contra hne
      rcases hheld l hlt with hold | hfree
      · exact hne (hI.exclusive i k u t l (hother hu hne) ht hlu hold)
      · exact Bool.false_ne_true ((free_eq_false.mpr ⟨i, u, hother hu hne, hlu⟩).symm.trans hfree)
    by_cases hi : i = k
    · rw [hi] at hu ⊢
      rw [hself hu] at hlu
      exact (hnew hv hlv hlu).symm
    · by_cases hj : j = k
      · rw [hj] at hv ⊢
        rw [hself hv] at hlv
        exact hnew hu hlu hlv
      · exact hI.exclusive i j u v l (hother hu hi) (hother hv hj) hlu hlv

/-- A step of the runtime keeps the order. -/
lemma Inv.step (hprog : ∀ t, (prog t).Ordered rank []) (hI : r.Inv rank) {a : Action τ}
    (h : step prog workers r a = some r') : r'.Inv rank := by
  cases a with
  | spawn t =>
    cases h
    exact hI.spawn (hprog t)
  | resume k =>
    unfold Runtime.step at h
    dsimp only at h
    split at h
    · cases h
    · next t ht =>
      split at h
      · next hguard =>
        cases h
        have hmem := List.mem_of_getElem? ht
        exact hI.of_set ht (hI.ordered t hmem) nofun (fun _ => hguard.2.1) fun l hl => .inl hl
      · cases h
  | step k b =>
    change r.taskStep k b = some r' at h
    unfold taskStep at h
    split at h
    · cases h
    · next t ht =>
      split at h
      · next hguard =>
        cases h
        have hordered := hI.ordered t (List.mem_of_getElem? ht)
        refine hI.of_set ht (hordered.next b) (fun hrun => ?_) (fun hrun => ?_) fun l hl => ?_
        · dsimp only at hrun ⊢
          rw [Bool.and_eq_false_iff, Bool.not_eq_false', Bool.not_eq_false'] at hrun
          rcases hrun with hyield | hempty
          · exact hordered.held_of_yields hyield b
          · rw [List.isEmpty_iff.mp hempty]
            rfl
        · dsimp only at hrun ⊢
          rw [Bool.and_eq_true, Bool.not_eq_true', Bool.not_eq_true'] at hrun
          exact List.isEmpty_eq_false_iff.mp hrun.2
        · exact (mem_held_next hl).imp_right fun hw => hguard.2.2 l hw
      · cases h

/-! ## Progress -/

/-- A running task that stands still waits for a running task. -/
lemma Inv.waits_of_stuck (hI : r.Inv rank) {k : ℕ} {t : Task ι} (ht : r.tasks[k]? = some t)
    (hrun : t.running = true) {b : Bool} (hstuck : r.taskStep k b = none) :
    ∃ j u, r.WaitsFor k j ∧ r.tasks[j]? = some u ∧ u.running = true := by
  have hmem := List.mem_of_getElem? ht
  unfold taskStep at hstuck
  rw [ht] at hstuck
  dsimp only at hstuck
  split at hstuck
  · cases hstuck
  next hguard =>
  obtain ⟨l, hl, hheld⟩ : ∃ l, wants t.stack = some l ∧ r.free l = false := by
    by_contra hnone
    refine hguard ⟨hrun, hI.finished t hmem hrun, fun l hl => ?_⟩
    by_contra hfree
    exact hnone ⟨l, hl, Bool.eq_false_iff.mpr hfree⟩
  obtain ⟨j, u, hu, hlu⟩ := free_eq_false.mp hheld
  refine ⟨j, u, ⟨t, u, l, ht, hu, hl, hlu⟩, hu, ?_⟩
  by_contra hparked
  rw [hI.parked u (List.mem_of_getElem? hu) (Bool.eq_false_iff.mpr hparked)] at hlu
  cases hlu

/-- The running tasks that a running task waits for, directly or not, end in one that takes a step.
-/
theorem Inv.step_of_running (hI : r.Inv rank) {k : ℕ} {t : Task ι} (ht : r.tasks[k]? = some t)
    (hrun : t.running = true) (b : Bool) :
    ∃ j, Relation.ReflTransGen r.WaitsFor k j ∧ (r.taskStep j b).isSome := by
  classical
  by_contra hnone
  -- the rank of the wanted lock increases along a chain, and there are finitely many tasks
  let waiting := (List.range r.tasks.length).filter fun j =>
    Relation.ReflTransGen r.WaitsFor k j ∧ ∃ u, r.tasks[j]? = some u ∧ u.running = true
  have hwaiting : ∀ j, j ∈ waiting ↔ Relation.ReflTransGen r.WaitsFor k j ∧
      ∃ u, r.tasks[j]? = some u ∧ u.running = true := by
    intro j
    rw [List.mem_filter, List.mem_range, decide_eq_true_eq, and_iff_right_iff_imp]
    rintro ⟨-, u, hu, -⟩
    exact (List.getElem?_eq_some_iff.mp hu).1
  let height := fun j : ℕ => (r.tasks[j]?.bind fun u : Task ι => wants u.stack).elim 0 rank
  obtain ⟨m, hm⟩ : ∃ m, List.argmax height waiting = some m := by
    refine Option.ne_none_iff_exists'.mp fun hempty => ?_
    rw [List.argmax_eq_none] at hempty
    exact List.not_mem_nil (hempty ▸ (hwaiting k).mpr ⟨.refl, t, ht, hrun⟩)
  obtain ⟨hkm, u, hu, hurun⟩ := (hwaiting m).mp (List.argmax_mem hm)
  have hstuck : ∀ j, Relation.ReflTransGen r.WaitsFor k j → r.taskStep j b = none := by
    intro j hj
    by_contra hsome
    exact hnone ⟨j, hj, Option.isSome_iff_ne_none.mpr hsome⟩
  obtain ⟨j, v, hmj, hv, hvrun⟩ := hI.waits_of_stuck hu hurun (hstuck m hkm)
  obtain ⟨_, _, ⟨v', _, n, hv', _, hn, _⟩, _⟩ :=
    hI.waits_of_stuck hv hvrun (hstuck j (hkm.tail hmj))
  obtain ⟨u', _, l, hu', _, hl, _⟩ := id hmj
  cases hu.symm.trans hu'
  cases hv.symm.trans hv'
  have hle : height j ≤ height m :=
    List.le_of_mem_argmax ((hwaiting j).mpr ⟨hkm.tail hmj, v, hv, hvrun⟩) hm
  have hlt := hI.rank_lt_of_waits (.single hmj) hu hl hv hn
  simp only [height, hu, hv, Option.bind_some, hl, hn, Option.elim_some] at hle
  exact absurd hlt (Nat.not_lt.mpr hle)

/-- The mutexes of a state are exclusive, nobody waits in a cycle, whoever waits does so for a task
that takes a step, and the runtime does not stand still before all tasks are finished. -/
structure DeadlockFree (workers : ℕ) (r : Runtime ι) : Prop where
  exclusive : ∀ (j k : ℕ) (t u : Task ι) (l : ι), r.tasks[j]? = some t → r.tasks[k]? = some u →
    l ∈ held t.stack → l ∈ held u.stack → j = k
  acyclic : ∀ k, ¬Relation.TransGen r.WaitsFor k k
  running : ∀ (k : ℕ) (t : Task ι) (b : Bool), r.tasks[k]? = some t → t.running = true →
    ∃ j, Relation.ReflTransGen r.WaitsFor k j ∧ (r.taskStep j b).isSome
  progress : r.Unfinished → ∀ b, (∃ k, (r.taskStep k b).isSome) ∨
    (∃ (k : ℕ) (t : Task ι), r.tasks[k]? = some t ∧ t.stack ≠ [] ∧ t.running = false) ∧
      r.busy < workers

/-- A runtime that keeps the order is free of deadlocks, if there is a worker. -/
theorem Inv.deadlockFree (hI : r.Inv rank) (hworkers : 0 < workers) : r.DeadlockFree workers where
  exclusive := hI.exclusive
  acyclic := hI.no_wait_cycle
  running _ _ b ht hrun := hI.step_of_running ht hrun b
  progress := by
    rintro ⟨t, hmem, hstack⟩ b
    obtain ⟨k, ht⟩ := List.mem_iff_getElem?.mp hmem
    by_cases hbusy : ∃ u ∈ r.tasks, u.running = true
    · obtain ⟨u, hu, hurun⟩ := hbusy
      obtain ⟨i, hi⟩ := List.mem_iff_getElem?.mp hu
      obtain ⟨j, -, hj⟩ := hI.step_of_running hi hurun b
      exact .inl ⟨j, hj⟩
    · refine .inr ⟨⟨k, t, ht, hstack, ?_⟩, ?_⟩
      · exact Bool.eq_false_iff.mpr fun hrun => hbusy ⟨t, hmem, hrun⟩
      · unfold busy
        rw [List.countP_eq_zero.mpr fun u hu hrun => hbusy ⟨u, hu, hrun⟩]
        exact hworkers

/-- A runtime whose programs take their locks in order is free of deadlocks in every run. -/
theorem deadlockFree_of_ordered (hprog : ∀ t, (prog t).Ordered rank []) (hworkers : 0 < workers)
    (as : List (Action τ)) :
    Exec.Always (step prog workers) (DeadlockFree workers) (new : Runtime ι) as :=
  Exec.always_of_invariant (I := Inv rank) (fun _ _ _ hI h => hI.step hprog h)
    (fun _ hI => hI.deadlockFree hworkers) .of_new

end Runtime

end Locks

end Rfrp
