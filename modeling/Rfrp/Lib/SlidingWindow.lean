import Rfrp.Lib.FailureWindow
import Mathlib.Data.List.Chain
import Mathlib.Data.Finset.Max

/-!
# Windows that follow one another

A `FailureWindow` that counts every attempt lets the first attempts of each window through.  The windows
themselves are given by the times alone: a window starts with an attempt and takes those that come less
than its length later, and the next attempt starts the next window (`windows`).

Within one window the limit holds.  An interval that is shorter than a window can still take attempts from
the end of one window and from the beginning of the next, and no others.  `sliding_iff` states when the
limit holds in all such intervals.
-/

namespace Rfrp

namespace FailureWindow

/-- Attempts at these times, all of which count. -/
def requests (ts : List ℕ) : List Event := ts.map fun t => ⟨t, .failure⟩

/-- The times of the attempts that are let through. -/
def granted (h : List (Event × Bool)) : List ℕ := (h.filter Prod.snd).map fun j => j.1.time

/-- The times that still belong to the window from `start`, and the windows after it. -/
def windowsFrom (length : ℕ) : ℕ → List ℕ → List ℕ × List (List ℕ)
  | _, [] => ([], [])
  | start, t :: ts =>
    if t - start < length then
      (t :: (windowsFrom length start ts).1, (windowsFrom length start ts).2)
    else
      ([], (t :: (windowsFrom length t ts).1) :: (windowsFrom length t ts).2)

/-- The times, window by window. -/
def windows (length : ℕ) : List ℕ → List (List ℕ)
  | [] => []
  | t :: ts => (t :: (windowsFrom length t ts).1) :: (windowsFrom length t ts).2

/-- The number of times in an interval. -/
def within (x y : ℕ) (ts : List ℕ) : ℕ := ts.countP fun t => x ≤ t ∧ t ≤ y

variable (p : FailureWindow)

/-- No interval shorter than the window has more times than the limit. -/
def Sliding (ts : List ℕ) : Prop := ∀ x y, y - x < p.length → within x y ts ≤ p.limit

/-- Of two windows, the times of the first from `u` on and those of the second up to `v` are no more than
the limit together, when `v` comes less than a window after `u`. -/
def Spaced (a b : List ℕ) : Prop :=
  ∀ u ∈ a, ∀ v ∈ b, v - u < p.length → a.countP (u ≤ ·) + b.countP (· ≤ v) ≤ p.limit

/-- Each window starts after the windows before it are over. -/
def Staggered : List (List ℕ) → Prop
  | [] => True
  | a :: ws =>
    (∃ s, a.head? = some s ∧ (∀ u ∈ a, s ≤ u ∧ u < s + p.length) ∧
      ∀ b ∈ ws, ∀ v ∈ b, s + p.length ≤ v) ∧
      Staggered ws

variable {p} {n start x y : ℕ} {ts : List ℕ} {a b : List ℕ} {ws : List (List ℕ)}

/-! ## What is let through -/

/-- An event that is granted is put in front of those that were granted before. -/
lemma granted_cons (j : Event × Bool) (h : List (Event × Bool)) :
    granted (j :: h) = if j.2 then j.1.time :: granted h else granted h := by
  unfold granted
  rw [List.filter_cons]
  split <;> rfl

/-- In a window that runs, the attempts are let through until the limit is reached; of the later windows,
the first ones are, and at least one. -/
lemma granted_some (n start : ℕ) (ts : List ℕ) :
    granted (p.judge (some (n, start)) (requests ts)) =
      (windowsFrom p.length start ts).1.take (p.limit - n) ++
        ((windowsFrom p.length start ts).2.map (List.take (max 1 p.limit))).flatten := by
  induction ts generalizing n start with
  | nil => simp [requests, judge, granted, windowsFrom]
  | cons t ts ih =>
    have hjudge : ∀ r, p.judge r (requests (t :: ts)) =
        (⟨t, .failure⟩, p.admits t r) :: p.judge (p.next r ⟨t, .failure⟩) (requests ts) :=
      fun _ => rfl
    rw [hjudge, granted_cons]
    unfold windowsFrom
    by_cases hlt : t - start < p.length
    · rw [if_pos hlt, next_some (e := ⟨t, .failure⟩) hlt (.inl (by simp)), ih]
      dsimp only
      by_cases hroom : n < p.limit
      · have hadm : p.admits t (some (n, start)) = true := (admits_some_iff hlt).mpr hroom
        rw [if_pos hadm, if_pos ⟨hadm, rfl⟩, show p.limit - n = p.limit - (n + 1) + 1 by omega,
          List.take_succ_cons]
        rfl
      · have hadm : ¬ p.admits t (some (n, start)) = true := mt (admits_some_iff hlt).mp hroom
        rw [if_neg hadm, if_neg (fun h => hadm h.1), show p.limit - (n + 0) = 0 by omega,
          show p.limit - n = 0 by omega, List.take_zero, List.take_zero]
    · have hlive : p.live t (some (n, start)) = none := live_of_le (not_lt.mp hlt)
      have hadm : p.admits t (some (n, start)) = true := by
        unfold admits
        rw [hlive]
      have hnext : p.next (some (n, start)) ⟨t, .failure⟩ = some (1, t) := by
        unfold next fail
        dsimp only
        rw [if_pos hadm, hlive]
      rw [if_neg hlt, if_pos hadm, hnext, ih, List.take_nil, List.nil_append, List.map_cons,
        List.flatten_cons, show max 1 p.limit = p.limit - 1 + 1 by omega, List.take_succ_cons]
      rfl

/-- Of each window the first attempts are let through. -/
lemma granted_eq (ts : List ℕ) :
    granted (p.judge none (requests ts)) =
      ((windows p.length ts).map (List.take (max 1 p.limit))).flatten := by
  cases ts with
  | nil => rfl
  | cons t ts =>
    have hjudge : p.judge none (requests (t :: ts)) =
        (⟨t, .failure⟩, true) :: p.judge (some (1, t)) (requests ts) := rfl
    rw [hjudge, granted_cons, if_pos rfl, granted_some]
    unfold windows
    rw [List.map_cons, List.flatten_cons, show max 1 p.limit = p.limit - 1 + 1 by omega,
      List.take_succ_cons]
    rfl

/-! ## The windows of times in order -/

/-- The window that runs ends before its length is over, and the others start later. -/
lemma windowsFrom_spec (hlength : 0 < p.length) (hsorted : ts.Pairwise (· ≤ ·))
    (hstart : ∀ t ∈ ts, start ≤ t) :
    (∀ t ∈ (windowsFrom p.length start ts).1, start ≤ t ∧ t < start + p.length) ∧
      (∀ b ∈ (windowsFrom p.length start ts).2, ∀ t ∈ b, start + p.length ≤ t) ∧
      p.Staggered (windowsFrom p.length start ts).2 := by
  induction ts generalizing start with
  | nil => simp [windowsFrom, Staggered]
  | cons t ts ih =>
    obtain ⟨hlater, hsorted⟩ := List.pairwise_cons.mp hsorted
    have ht := hstart t (List.mem_cons_self ..)
    unfold windowsFrom
    by_cases hlt : t - start < p.length
    · obtain ⟨hrun, hover, hstag⟩ := ih hsorted fun t' h' => hstart t' (List.mem_cons_of_mem _ h')
      rw [if_pos hlt]
      refine ⟨?_, hover, hstag⟩
      intro t' h'
      rcases List.mem_cons.mp h' with rfl | h'
      · omega
      · exact hrun t' h'
    · obtain ⟨hrun, hover, hstag⟩ := ih hsorted hlater
      rw [if_neg hlt]
      refine ⟨fun t' h' => absurd h' (List.not_mem_nil), ?_, ⟨t, rfl, ?_, hover⟩, hstag⟩
      · intro b hb t' h'
        have htt : t ≤ t' := by
          rcases List.mem_cons.mp hb with rfl | hb
          · rcases List.mem_cons.mp h' with rfl | h'
            · exact le_rfl
            · exact (hrun t' h').1
          · exact (Nat.le_add_right ..).trans (hover b hb t' h')
        omega
      · intro t' h'
        rcases List.mem_cons.mp h' with rfl | h'
        · omega
        · exact hrun t' h'

/-- The windows that a limiter opens are at least their length apart. -/
lemma staggered_windows (hlength : 0 < p.length) (hsorted : ts.Pairwise (· ≤ ·)) :
    p.Staggered (windows p.length ts) := by
  cases ts with
  | nil => trivial
  | cons t ts =>
    obtain ⟨hlater, hsorted⟩ := List.pairwise_cons.mp hsorted
    obtain ⟨hrun, hover, hstag⟩ := windowsFrom_spec hlength hsorted hlater
    refine ⟨⟨t, rfl, ?_, hover⟩, hstag⟩
    intro u hu
    rcases List.mem_cons.mp hu with rfl | hu
    · omega
    · exact hrun u hu

/-- The first times of each window still are in windows of their own. -/
lemma Staggered.take (hn : 0 < n) (h : p.Staggered ws) :
    p.Staggered (ws.map (List.take n)) := by
  induction ws with
  | nil => trivial
  | cons a ws ih =>
    obtain ⟨⟨s, hs, hrun, hover⟩, hstag⟩ := h
    refine ⟨⟨s, ?_, fun u hu => hrun u (List.mem_of_mem_take hu), ?_⟩, ih hstag⟩
    · rw [List.head?_take, if_neg hn.ne']
      exact hs
    · intro b hb v hv
      obtain ⟨w, hw, rfl⟩ := List.mem_map.mp hb
      exact hover w hw v (List.mem_of_mem_take hv)

/-! ## Intervals -/

/-- The times within bounds are counted part by part. -/
lemma within_append (x y : ℕ) (a b : List ℕ) : within x y (a ++ b) = within x y a + within x y b :=
  List.countP_append ..

/-- Nothing is counted where no time is within the bounds. -/
lemma within_eq_zero (h : ∀ t ∈ a, x ≤ t → ¬ t ≤ y) : within x y a = 0 := by
  refine List.countP_eq_zero.mpr fun t ht hboth => ?_
  rw [decide_eq_true_eq] at hboth
  exact h t ht hboth.1 hboth.2

/-- No more times are counted than there are. -/
lemma within_le_length (x y : ℕ) (a : List ℕ) : within x y a ≤ a.length := List.countP_le_length

/-- Among the times from a bound on there is a least one. -/
lemma exists_least (h : ∃ u ∈ a, x ≤ u) : ∃ u ∈ a, x ≤ u ∧ ∀ t ∈ a, x ≤ t → u ≤ t := by
  obtain ⟨u₀, hu₀, hx⟩ := h
  obtain ⟨u, hu, hleast⟩ := (a.toFinset.filter (x ≤ ·)).exists_min_image id
    ⟨u₀, Finset.mem_filter.mpr ⟨List.mem_toFinset.mpr hu₀, hx⟩⟩
  obtain ⟨hu, hxu⟩ := Finset.mem_filter.mp hu
  refine ⟨u, List.mem_toFinset.mp hu, hxu, fun t ht hxt => ?_⟩
  exact hleast t (Finset.mem_filter.mpr ⟨List.mem_toFinset.mpr ht, hxt⟩)

/-- Among the times up to a bound there is a greatest one. -/
lemma exists_greatest (h : ∃ v ∈ b, v ≤ y) : ∃ v ∈ b, v ≤ y ∧ ∀ t ∈ b, t ≤ y → t ≤ v := by
  obtain ⟨v₀, hv₀, hy⟩ := h
  obtain ⟨v, hv, hgreatest⟩ := (b.toFinset.filter (· ≤ y)).exists_max_image id
    ⟨v₀, Finset.mem_filter.mpr ⟨List.mem_toFinset.mpr hv₀, hy⟩⟩
  obtain ⟨hv, hvy⟩ := Finset.mem_filter.mp hv
  refine ⟨v, List.mem_toFinset.mp hv, hvy, fun t ht hty => ?_⟩
  exact hgreatest t (Finset.mem_filter.mpr ⟨List.mem_toFinset.mpr ht, hty⟩)

/-- An interval from the first of two windows into the second. -/
lemma Spaced.within_le (h : p.Spaced a b) (ha : ∃ u ∈ a, x ≤ u) (hb : ∃ v ∈ b, v ≤ y)
    (hshort : y - x < p.length) : within x y a + within x y b ≤ p.limit := by
  obtain ⟨u, hu, hxu, hleast⟩ := exists_least ha
  obtain ⟨v, hv, hvy, hgreatest⟩ := exists_greatest hb
  have hcount := h u hu v hv (by omega)
  have hcount_a : within x y a ≤ a.countP (u ≤ ·) := by
    refine List.countP_mono_left fun t ht hboth => ?_
    rw [decide_eq_true_eq] at hboth ⊢
    exact hleast t ht hboth.1
  have hcount_b : within x y b ≤ b.countP (· ≤ v) := by
    refine List.countP_mono_left fun t ht hboth => ?_
    rw [decide_eq_true_eq] at hboth ⊢
    exact hgreatest t ht hboth.2
  omega

/-- The limit holds in all intervals when it holds in those from one window into the next. -/
lemma sliding_flatten_iff (hstag : p.Staggered ws) (hlimit : ∀ w ∈ ws, w.length ≤ p.limit) :
    p.Sliding ws.flatten ↔ ws.IsChain p.Spaced := by
  induction ws with
  | nil => exact iff_of_true (fun _ _ _ => Nat.zero_le _) .nil
  | cons a ws ih =>
    have ha := hlimit a (List.mem_cons_self ..)
    obtain ⟨⟨s, hs, hrun, hover⟩, hstag⟩ := hstag
    have hrest := ih hstag fun w hw => hlimit w (List.mem_cons_of_mem a hw)
    rw [List.flatten_cons]
    cases ws with
    | nil =>
      refine iff_of_true (fun x y _ => ?_) (.singleton a)
      rw [List.flatten_nil, List.append_nil]
      exact (within_le_length x y a).trans ha
    | cons b ws =>
      obtain ⟨⟨s', hs', -, hover'⟩, -⟩ := hstag
      have hss : s + p.length ≤ s' :=
        hover b (List.mem_cons_self ..) s' (List.mem_of_head? hs')
      rw [List.isChain_cons_cons, ← hrest]
      constructor
      · intro h
        constructor
        · intro u hu v hv hshort
          have hcount := h u v hshort
          have hb := hover b (List.mem_cons_self ..)
          have hcount_a : a.countP (u ≤ ·) ≤ within u v a := by
            refine List.countP_mono_left fun t ht hle => ?_
            rw [decide_eq_true_eq] at hle ⊢
            have htlt := (hrun t ht).2
            have hvle := hb v hv
            omega
          have hcount_b : b.countP (· ≤ v) ≤ within u v b := by
            refine List.countP_mono_left fun t ht hle => ?_
            rw [decide_eq_true_eq] at hle ⊢
            have hult := (hrun u hu).2
            have htle := hb t ht
            omega
          rw [within_append, List.flatten_cons, within_append] at hcount
          omega
        · intro x y hshort
          have hcount := h x y hshort
          rw [within_append] at hcount
          omega
      · rintro ⟨hspaced, htail⟩ x y hshort
        rw [within_append]
        by_cases hin : ∃ u ∈ a, x ≤ u ∧ u ≤ y
        · obtain ⟨u, hu, hxu, huy⟩ := hin
          have hult := (hrun u hu).2
          -- the windows after `b` start when the interval is over
          have hlate : within x y ws.flatten = 0 := by
            refine within_eq_zero fun t ht _ hty => ?_
            obtain ⟨w, hw, ht⟩ := List.mem_flatten.mp ht
            have htle := hover' w hw t ht
            omega
          rw [List.flatten_cons, within_append, hlate, Nat.add_zero]
          by_cases hin' : ∃ v ∈ b, v ≤ y
          · exact hspaced.within_le ⟨u, hu, hxu⟩ hin' hshort
          · rw [within_eq_zero fun t ht _ hty => hin' ⟨t, ht, hty⟩, Nat.add_zero]
            exact (within_le_length x y a).trans ha
        · rw [within_eq_zero fun t ht hxt hty => hin ⟨t, ht, hxt, hty⟩, Nat.zero_add]
          exact htail x y hshort

/-- When the limit holds in all intervals shorter than the window: it is not zero, and of the attempts
that are let through at the end of one window and at the beginning of the next, no more than the limit come
within less than a window. -/
theorem sliding_iff (hsorted : ts.Pairwise (· ≤ ·)) :
    p.Sliding (granted (p.judge none (requests ts))) ↔
      (0 < p.length → ts ≠ [] → 0 < p.limit) ∧
        ((windows p.length ts).map (List.take p.limit)).IsChain p.Spaced := by
  rw [granted_eq]
  by_cases hlength : 0 < p.length
  · by_cases hlimit : 0 < p.limit
    · have hstag := (staggered_windows hlength hsorted).take hlimit
      rw [Nat.max_eq_right hlimit, sliding_flatten_iff hstag]
      · exact (and_iff_right fun _ _ => hlimit).symm
      · intro w hw
        obtain ⟨w, -, rfl⟩ := List.mem_map.mp hw
        exact List.length_take_le ..
    · cases ts with
      | nil => exact iff_of_true (fun _ _ _ => Nat.zero_le _) ⟨fun _ h => absurd rfl h, .nil⟩
      | cons t ts =>
        refine iff_of_false (fun h => ?_) fun h => hlimit (h.1 hlength (List.cons_ne_nil t ts))
        -- the first attempt is let through
        have hcount := h t t (by omega)
        unfold windows at hcount
        rw [List.map_cons, List.flatten_cons, within_append,
          show max 1 p.limit = p.limit + 1 by omega, List.take_succ_cons] at hcount
        have hfirst : within t t (t :: (windowsFrom p.length t ts).1.take p.limit) ≠ 0 := by
          unfold within
          rw [List.countP_cons_of_pos (by simp)]
          exact Nat.succ_ne_zero _
        omega
  · refine iff_of_true (fun x y hshort => absurd (Nat.zero_lt_of_lt hshort) hlength)
      ⟨fun h => absurd h hlength, ?_⟩
    apply List.Pairwise.isChain
    refine List.pairwise_of_forall fun a b u _ v _ hshort => ?_
    exact absurd (Nat.zero_lt_of_lt hshort) hlength

end FailureWindow

end Rfrp
