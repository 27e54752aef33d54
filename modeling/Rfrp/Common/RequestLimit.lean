import Rfrp.Common.RateLimiter
import Rfrp.Lib.SlidingWindow

/-!
# Requests counted by address

All addresses share the table of a `RateLimiter`, and a table that has grown large loses the entries whose
window is over.  For each address the table follows the record of a `FailureWindow` in which every request
counts (`agrees_allow`).  From this, `allow_isolated` states that the answers to an address do not depend
on the other addresses, and `allow_sliding_iff` in which sequences of requests the limit holds in every
interval shorter than the window.
-/

namespace Rfrp

namespace RateLimiter

open FailureWindow (Record)

/-- A call of `allow`. -/
structure Call where
  ip : IpAddr
  now : Instant
  deriving DecidableEq

/-- The table after a list of calls. -/
def after (l : RateLimiter) (cs : List Call) : RateLimiter :=
  cs.foldl (fun l c => (l.allow c.ip c.now).1) l

/-- The calls of a list, each with its answer. -/
def answers : RateLimiter → List Call → List (Call × Bool)
  | _, [] => []
  | l, c :: cs => (c, (l.allow c.ip c.now).2) :: answers (l.allow c.ip c.now).1 cs

/-- The calls of an address. -/
def ownCalls (ip : IpAddr) (cs : List Call) : List Call := cs.filter fun c => c.ip = ip

/-- The calls of an address and their answers. -/
def ownAnswers (ip : IpAddr) (as : List (Call × Bool)) : List (Call × Bool) :=
  as.filter fun a => a.1.ip = ip

/-- The times of the calls do not decrease. -/
def InOrder (cs : List Call) : Prop := cs.Pairwise fun c d => c.now ≤ d.now

instance (cs : List Call) : Decidable (InOrder cs) :=
  inferInstanceAs (Decidable (cs.Pairwise fun c d => c.now ≤ d.now))

/-- The window in which the requests of an address are counted. -/
def counted (l : RateLimiter) : FailureWindow := ⟨l.max, l.window⟩

/-- The entry of an address. -/
def entry (l : RateLimiter) (ip : IpAddr) : Record := l.inner.get ip

/-- A call, for the guard. -/
def Call.event (c : Call) : FailureWindow.Event := ⟨c.now, .failure⟩

variable {l : RateLimiter} {ip : IpAddr} {cs : List Call} {r : Record} {now : Instant}

/-! ## One call -/

/-- What `allow` does to the entry of the caller, and what it answers. -/
lemma allow_own (l : RateLimiter) (c : Call) :
    (l.allow c.ip c.now).2 = l.counted.admits c.now (l.entry c.ip) ∧
      (l.allow c.ip c.now).1.entry c.ip = l.counted.next (l.entry c.ip) c.event := by
  unfold allow entry FailureWindow.next Call.event
  cases hget : l.inner.get c.ip with
  | none => exact ⟨rfl, HashMap.get_insert_self ..⟩
  | some x =>
    obtain ⟨count, start⟩ := x
    dsimp only
    by_cases hover : c.now - start ≥ l.window
    · have hlive : l.counted.live c.now (some (count, start)) = none :=
        FailureWindow.live_of_le (p := l.counted) hover
      have hadm : l.counted.admits c.now (some (count, start)) = true := by
        unfold FailureWindow.admits
        rw [hlive]
      rw [if_pos hover, if_pos hadm, hadm]
      unfold FailureWindow.fail
      rw [hlive]
      exact ⟨rfl, HashMap.get_insert_self ..⟩
    · have hlt : c.now - start < l.counted.length := not_le.mp hover
      have hlive := FailureWindow.live_of_lt (p := l.counted) (n := count) hlt
      rw [if_neg hover]
      by_cases hroom : count < l.max
      · have hadm := (FailureWindow.admits_some_iff (p := l.counted) hlt).mpr hroom
        rw [if_pos hroom, if_pos hadm, hadm]
        unfold FailureWindow.fail
        rw [hlive]
        exact ⟨rfl, HashMap.get_insert_self ..⟩
      · have hadm := mt (FailureWindow.admits_some_iff (p := l.counted) hlt).mp hroom
        rw [if_neg hroom, if_neg hadm]
        exact ⟨(Bool.eq_false_iff.mpr hadm).symm, hget⟩

/-- A call changes no setting of the limiter. -/
lemma allow_counted (l : RateLimiter) (c : Call) :
    (l.allow c.ip c.now).1.counted = l.counted := by
  unfold allow
  cases l.inner.get c.ip with
  | none => rfl
  | some x =>
    dsimp only
    split
    · rfl
    · split <;> rfl

/-- A call leaves the entries of the other addresses to themselves, unless their window is over. -/
lemma agrees_allow_of_ne (l : RateLimiter) {c : Call} (hip : ip ≠ c.ip) :
    l.counted.Agrees c.now ((l.allow c.ip c.now).1.entry ip) (l.entry ip) := by
  unfold allow entry
  cases l.inner.get c.ip with
  | none =>
    dsimp only
    rw [HashMap.get_insert, if_neg hip]
    split
    · rw [HashMap.get_retain]
      exact (FailureWindow.Agrees.refl _ _).live
    · exact .refl _ _
  | some x =>
    dsimp only
    split
    · rw [HashMap.get_insert, if_neg hip]
      exact .refl _ _
    · split
      · rw [HashMap.get_insert, if_neg hip]
        exact .refl _ _
      · exact .refl _ _

/-- The entry of an address follows the record of its requests. -/
lemma agrees_allow (c : Call) (h : l.counted.Agrees c.now (l.entry c.ip) r) :
    l.counted.Agrees c.now ((l.allow c.ip c.now).1.entry c.ip) (l.counted.next r c.event) := by
  rw [(allow_own l c).2]
  exact h.next c.event

/-! ## A list of calls -/

/-- The first call is answered, and the others by what it leaves. -/
lemma answers_cons (l : RateLimiter) (c : Call) (cs : List Call) :
    answers l (c :: cs) = (c, (l.allow c.ip c.now).2) :: answers (l.allow c.ip c.now).1 cs :=
  rfl

/-- The calls of an address, with one more in front. -/
lemma ownCalls_cons (ip : IpAddr) (c : Call) (cs : List Call) :
    ownCalls ip (c :: cs) = if c.ip = ip then c :: ownCalls ip cs else ownCalls ip cs := by
  unfold ownCalls
  rw [List.filter_cons]
  simp only [decide_eq_true_eq]

/-- The answers to an address, with one more in front. -/
lemma ownAnswers_cons (ip : IpAddr) (a : Call × Bool) (as : List (Call × Bool)) :
    ownAnswers ip (a :: as) = if a.1.ip = ip then a :: ownAnswers ip as else ownAnswers ip as := by
  unfold ownAnswers
  rw [List.filter_cons]
  simp only [decide_eq_true_eq]

/-- The answers to an address are the same when the calls of the others are left out. -/
lemma ownAnswers_eq {l' : RateLimiter} (hcounted : l'.counted = l.counted) (hsorted : InOrder cs)
    (hnow : ∀ c ∈ cs, now ≤ c.now) (h : l.counted.Agrees now (l.entry ip) r)
    (h' : l.counted.Agrees now (l'.entry ip) r) :
    ownAnswers ip (answers l cs) = answers l' (ownCalls ip cs) := by
  induction cs generalizing l l' r now with
  | nil => rfl
  | cons c cs ih =>
    obtain ⟨hlater, hsorted⟩ := List.pairwise_cons.mp hsorted
    have htime := h.mono (hnow c (List.mem_cons_self ..))
    have htime' := h'.mono (hnow c (List.mem_cons_self ..))
    have hsame := allow_counted l c
    rw [answers_cons, ownAnswers_cons, ownCalls_cons]
    by_cases hip : c.ip = ip
    · subst hip
      have hsame' := (allow_counted l' c).trans hcounted
      have hagrees' := agrees_allow (l := l') c (by rw [hcounted]; exact htime')
      have hrest := ih (hsame'.trans hsame.symm) hsorted hlater
        (by rw [hsame]; exact agrees_allow c htime)
        (by rw [hsame, ← hcounted]; exact hagrees')
      rw [if_pos rfl, if_pos rfl, answers_cons, hrest, (allow_own l c).1, (allow_own l' c).1,
        hcounted, htime.admits_eq, htime'.admits_eq]
    · have hrest := ih (hcounted.trans hsame.symm) hsorted hlater
        (by rw [hsame]; exact (agrees_allow_of_ne l (Ne.symm hip)).trans htime)
        (by rw [hsame]; exact htime')
      rw [if_neg hip, if_neg hip, hrest]

/-- The answers to a single address are those of the guard. -/
lemma answers_judge (l : RateLimiter) (hip : ∀ c ∈ cs, c.ip = ip) :
    (answers l cs).map (fun a => (a.1.event, a.2)) =
      l.counted.judge (l.entry ip) (cs.map Call.event) := by
  induction cs generalizing l with
  | nil => rfl
  | cons c cs ih =>
    obtain rfl := hip c (List.mem_cons_self ..)
    have hrest := ih (l.allow c.ip c.now).1 fun d hd => hip d (List.mem_cons_of_mem c hd)
    rw [allow_counted, (allow_own l c).2] at hrest
    rw [answers_cons, List.map_cons, List.map_cons, hrest, (allow_own l c).1]
    rfl

/-- The answers to an address are the same when the calls of all others are left out. -/
theorem allow_isolated (max window : ℕ) (cs : List Call) (hsorted : InOrder cs) (ip : IpAddr) :
    ownAnswers ip (answers (new max window) cs) = answers (new max window) (ownCalls ip cs) :=
  ownAnswers_eq rfl hsorted (fun _ _ => Nat.zero_le _) (.inl rfl) (.refl 0 none)

/-- Two addresses share a table: the answers to the first, with and without the calls of the second. -/
theorem allow_isolated_sample :
    ownAnswers (.v4 1) (answers (new 2 1000)
        [⟨.v4 1, 0⟩, ⟨.v4 2, 10⟩, ⟨.v4 1, 20⟩, ⟨.v4 2, 20⟩, ⟨.v4 1, 30⟩, ⟨.v4 1, 1000⟩]) =
      answers (new 2 1000) [⟨.v4 1, 0⟩, ⟨.v4 1, 20⟩, ⟨.v4 1, 30⟩, ⟨.v4 1, 1000⟩] :=
  allow_isolated 2 1000 _ (by decide) (.v4 1)

/-! ## The limit in an interval -/

/-- The calls of an address in an interval that are answered `true`. -/
def allowedWithin (ip : IpAddr) (x y : Instant) (as : List (Call × Bool)) : ℕ :=
  as.countP fun a => a.1.ip = ip ∧ a.2 = true ∧ x ≤ a.1.now ∧ a.1.now ≤ y

/-- In every interval shorter than the window, at most `max` calls of an address are answered `true`. -/
def IsSlidingWindow (max window : ℕ) (ip : IpAddr) (cs : List Call) : Prop :=
  ∀ x y, y - x < window → allowedWithin ip x y (answers (new max window) cs) ≤ max

/-- The times of the calls of an address, window by window. -/
def callWindows (window : ℕ) (ip : IpAddr) (cs : List Call) : List (List Instant) :=
  FailureWindow.windows window ((ownCalls ip cs).map Call.now)

/-- Of the first `max` calls in one window and the first `max` calls in the next, those from `u` in the
one up to `v` in the other are at most `max` together, when they come within less than the window. -/
def RoomAcross (max window : ℕ) (a b : List Instant) : Prop :=
  ∀ u ∈ a.take max, ∀ v ∈ b.take max, v - u < window →
    (a.take max).countP (u ≤ ·) + (b.take max).countP (· ≤ v) ≤ max

/-- What an address is allowed within bounds is what its own window grants. -/
lemma allowedWithin_eq (max window : ℕ) (hsorted : InOrder cs) (ip : IpAddr) (x y : Instant) :
    allowedWithin ip x y (answers (new max window) cs) =
      FailureWindow.within x y (FailureWindow.granted
        (FailureWindow.judge ⟨max, window⟩ none
          (FailureWindow.requests ((ownCalls ip cs).map Call.now)))) := by
  have hown : ∀ c ∈ ownCalls ip cs, c.ip = ip :=
    fun c hc => of_decide_eq_true (List.mem_filter.mp hc).2
  have hjudge := answers_judge (new max window) hown
  have hevents : FailureWindow.requests ((ownCalls ip cs).map Call.now) =
      (ownCalls ip cs).map Call.event := List.map_map ..
  have hentry : (new max window).entry ip = none := rfl
  rw [hentry, ← allow_isolated max window cs hsorted ip] at hjudge
  rw [hevents]
  change _ = FailureWindow.within x y (FailureWindow.granted ((new max window).counted.judge none _))
  rw [← hjudge]
  unfold FailureWindow.within FailureWindow.granted allowedWithin ownAnswers
  rw [List.countP_map, List.countP_filter, List.countP_map, List.countP_filter]
  refine List.countP_congr fun a _ => ?_
  simp [Call.event]
  tauto

/-- The limit holds in every interval shorter than the window exactly when it is not zero, and the calls at
the end of a window leave room for those at the beginning of the next. -/
theorem allow_sliding_iff (max window : ℕ) (cs : List Call) (hsorted : InOrder cs) (ip : IpAddr) :
    IsSlidingWindow max window ip cs ↔
      (0 < window → ownCalls ip cs ≠ [] → 0 < max) ∧
        (callWindows window ip cs).IsChain (RoomAcross max window) := by
  have htimes : ((ownCalls ip cs).map Call.now).Pairwise (· ≤ ·) := by
    rw [List.pairwise_map]
    exact hsorted.filter _
  have hsliding := FailureWindow.sliding_iff (p := ⟨max, window⟩) htimes
  rw [List.isChain_map, ne_eq, List.map_eq_nil_iff] at hsliding
  refine Iff.trans ?_ hsliding
  refine forall_congr' fun x => forall_congr' fun y => imp_congr_right fun _ => ?_
  rw [allowedWithin_eq max window hsorted]

/-- Six calls, the last four of them at the change from one window to the next. -/
def atTheChange : List Call :=
  [⟨.v4 1, 0⟩, ⟨.v4 1, 59000⟩, ⟨.v4 1, 59000⟩, ⟨.v4 1, 60000⟩, ⟨.v4 1, 60000⟩, ⟨.v4 1, 60000⟩]

/-- Five calls are let through within one second, where three are allowed in a minute. -/
theorem allow_not_sliding :
    ¬ ∀ max window cs, InOrder cs → ∀ ip, IsSlidingWindow max window ip cs := by
  intro h
  have hlimit := h 3 60000 atTheChange (by decide) (.v4 1) 59000 60000 (by decide)
  revert hlimit
  decide

/-- With a minute between them, the limit holds across the windows. -/
theorem allow_sliding_sample :
    IsSlidingWindow 2 60000 (.v4 1) [⟨.v4 1, 0⟩, ⟨.v4 2, 30000⟩, ⟨.v4 1, 59000⟩, ⟨.v4 1, 60000⟩,
      ⟨.v4 1, 119000⟩] := by
  refine (allow_sliding_iff 2 60000 _ (by decide) (.v4 1)).mpr ⟨fun _ _ => by decide, ?_⟩
  have hwindows : callWindows 60000 (.v4 1) [⟨.v4 1, 0⟩, ⟨.v4 2, 30000⟩, ⟨.v4 1, 59000⟩,
      ⟨.v4 1, 60000⟩, ⟨.v4 1, 119000⟩] = [[0, 59000], [60000, 119000]] := by decide
  rw [hwindows, List.isChain_pair]
  unfold RoomAcross
  decide

end RateLimiter

end Rfrp
