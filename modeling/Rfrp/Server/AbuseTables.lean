import Rfrp.Common.RequestLimit
import Rfrp.Server.LoginLimit

/-!
# The size of the tables against abuse

A `RateLimiter` and the table of failed logins look for entries to drop when they hold more than
`MAX_ENTRIES`, and drop those whose window is over.  An entry whose window still runs is kept, whatever the
size of the table.  `abuse_tables_bounded_iff` states when the tables stay within their limit: an address
that is not in a full table must come when some entry of it is over.
-/

namespace Rfrp

/-- The table of an abuse limit. -/
abbrev AbuseTable := HashMap IpAddr (ℕ × Instant)

namespace AbuseTable

/-- The entries whose window still runs. -/
def live (m : AbuseTable) (now window : ℕ) : AbuseTable := m.retain fun _ e => now - e.2 < window

/-- The table holds at most `MAX_ENTRIES` addresses. -/
def Fits (m : AbuseTable) : Prop := m.len ≤ RateLimiter.maxEntries

/-- There is room for an address: it is in the table, or the table is not full, or the window of an entry
is over. -/
def HasRoom (m : AbuseTable) (now window : ℕ) (ip : IpAddr) : Prop :=
  m.containsKey ip = true ∨ m.len < RateLimiter.maxEntries ∨
    (m.live now window).len < RateLimiter.maxEntries

variable {m m' : AbuseTable} {now window : ℕ} {ip : IpAddr} {x : ℕ × Instant}

/-- The running entry of an address, if there is one. -/
lemma get_live (m : AbuseTable) (now window : ℕ) (ip : IpAddr) :
    (m.live now window).get ip = (m.get ip).filter fun e => now - e.2 < window :=
  HashMap.get_retain ..

/-- A new address adds an entry. -/
lemma len_insert_of_none (h : m.get ip = none) (x : ℕ × Instant) :
    (m.insert ip x).len = m.len + 1 := by
  have hnot : ¬ m.containsKey ip = true := by
    rw [Bool.not_eq_true, HashMap.containsKey_eq_false]
    exact h
  rw [HashMap.len_insert (HashMap.get_insert m ip · x), if_neg hnot]

/-- An address that is in the table adds none. -/
lemma len_insert_of_some {y : ℕ × Instant} (h : m.get ip = some y) (x : ℕ × Instant) :
    (m.insert ip x).len = m.len := by
  rw [HashMap.len_insert (HashMap.get_insert m ip · x),
    if_pos ((HashMap.containsKey_iff m ip).mpr ⟨y, h⟩)]

/-- A new entry whose window runs is one more of those. -/
lemma len_live_insert (h : m.get ip = none) (hx : now - x.2 < window) :
    (live (m.insert ip x) now window).len = (m.live now window).len + 1 := by
  have hlive : (m.live now window).get ip = none := by
    rw [get_live, h]
    rfl
  have hinsert : ∀ k, (live (m.insert ip x) now window).get k =
      if k = ip then some x else (m.live now window).get k := by
    intro k
    rw [get_live, HashMap.get_insert, get_live]
    split
    · rw [Option.filter_some, if_pos (decide_eq_true hx)]
    · rfl
  have hnot : ¬ (m.live now window).containsKey ip = true := by
    rw [Bool.not_eq_true, HashMap.containsKey_eq_false]
    exact hlive
  rw [HashMap.len_insert hinsert, if_neg hnot]

/-- When an address is new, there is room for it if and only if it finds a table that is not full, or one
with an entry that is over. -/
lemma hasRoom_of_none (h : m.get ip = none) :
    m.HasRoom now window ip ↔ m.len < RateLimiter.maxEntries ∨
      (m.live now window).len < RateLimiter.maxEntries := by
  unfold HasRoom
  rw [(HashMap.containsKey_eq_false m ip).mpr h]
  simp

/-- There is room for an address that is in the table. -/
lemma hasRoom_of_some (h : m.get ip = some x) : m.HasRoom now window ip :=
  .inl ((HashMap.containsKey_iff m ip).mpr ⟨x, h⟩)

/-! ## Steps and the states they meet -/

/-- The steps of a list, each with the state that it meets. -/
def visits {σ α : Type} (step : σ → α → σ) : σ → List α → List (σ × α)
  | _, [] => []
  | s, a :: as => (s, a) :: visits step (step s a) as

section Steps

variable {σ α : Type} (step : σ → α → σ) (table : σ → AbuseTable) (Adds : α → Prop)
  (Room : σ → α → Prop)

/-- When the steps that add to a table keep it within its limit exactly if they find room, and the others
always do, so it is for lists of steps. -/
lemma fits_visits_iff
    (hadds : ∀ s a, (table s).Fits → Adds a → ((table (step s a)).Fits ↔ Room s a))
    (hkeeps : ∀ s a, (table s).Fits → ¬ Adds a → (table (step s a)).Fits) (as : List α) (s : σ)
    (hs : (table s).Fits) :
    (∀ x ∈ visits step s as, Adds x.2 → (table (step x.1 x.2)).Fits) ↔
      ∀ x ∈ visits step s as, Adds x.2 → Room x.1 x.2 := by
  induction as generalizing s with
  | nil => exact iff_of_true (fun x hx => by cases hx) fun x hx => by cases hx
  | cons a as ih =>
    unfold visits
    rw [List.forall_mem_cons, List.forall_mem_cons]
    by_cases ha : Adds a
    · have hstep := hadds s a hs ha
      constructor
      · rintro ⟨hfits, hrest⟩
        exact ⟨fun _ => hstep.mp (hfits ha), (ih _ (hfits ha)).mp hrest⟩
      · rintro ⟨hroom, hrest⟩
        have hfits := hstep.mpr (hroom ha)
        exact ⟨fun _ => hfits, (ih _ hfits).mpr hrest⟩
    · have hfits := hkeeps s a hs ha
      exact and_congr (iff_of_true (fun h => absurd h ha) fun h => absurd h ha) (ih _ hfits)

/-- If every step that adds to the table leaves it within its limit, so does the whole list. -/
lemma fits_foldl (as : List α) (s : σ) (hs : (table s).Fits) (hadds : ∀ a ∈ as, Adds a)
    (h : ∀ x ∈ visits step s as, Adds x.2 → (table (step x.1 x.2)).Fits) :
    (table (as.foldl step s)).Fits := by
  induction as generalizing s with
  | nil => exact hs
  | cons a as ih =>
    obtain ⟨hfits, hrest⟩ := List.forall_mem_cons.mp h
    obtain ⟨ha, hadds⟩ := List.forall_mem_cons.mp hadds
    exact ih _ (hfits ha) hadds hrest

/-- New addresses at one time fill a table without end. -/
lemma len_foldl_new {add : σ → IpAddr → σ} (Inv : σ → Prop) (t : ℕ)
    (hinv : ∀ s a, Inv s → Inv (add s a))
    (h : ∀ s a, Inv s → (∀ ip x, (table s).get ip = some x → x.2 = t) → (table s).get a = none →
      ∀ ip, (table (add s a)).get ip = if ip = a then some (1, t) else (table s).get ip)
    (as : List IpAddr) (s : σ) (hs : Inv s) (hdistinct : as.Nodup)
    (hnew : ∀ a ∈ as, (table s).get a = none)
    (htime : ∀ ip x, (table s).get ip = some x → x.2 = t) :
    (table (as.foldl add s)).len = (table s).len + as.length := by
  induction as generalizing s with
  | nil => rfl
  | cons a as ih =>
    obtain ⟨hfresh, hdistinct⟩ := List.nodup_cons.mp hdistinct
    obtain ⟨hnone, hnew⟩ := List.forall_mem_cons.mp hnew
    have hstep := h s a hs htime hnone
    have hnot : ¬ (table s).containsKey a = true := by
      rw [Bool.not_eq_true, HashMap.containsKey_eq_false]
      exact hnone
    have hlen := HashMap.len_insert hstep
    rw [if_neg hnot] at hlen
    have hnew' : ∀ b ∈ as, (table (add s a)).get b = none := by
      intro b hb
      have hne : b ≠ a := by
        rintro rfl
        exact hfresh hb
      rw [hstep, if_neg hne]
      exact hnew b hb
    have htime' : ∀ ip x, (table (add s a)).get ip = some x → x.2 = t := by
      intro ip x hx
      rw [hstep] at hx
      split at hx
      · cases hx
        rfl
      · exact htime ip x hx
    rw [List.foldl_cons, ih _ (hinv s a hs) hdistinct hnew' htime', hlen, List.length_cons]
    omega

end Steps

end AbuseTable

open AbuseTable (visits)

/-! ## The table of a limiter -/

namespace RateLimiter

/-- `allow` keeps the table within its limit exactly when it finds room for the address. -/
lemma fits_allow_iff (l : RateLimiter) (c : Call) (hfits : AbuseTable.Fits l.inner) :
    AbuseTable.Fits (l.allow c.ip c.now).1.inner ↔
      AbuseTable.HasRoom l.inner c.now l.window c.ip := by
  unfold allow
  cases hget : l.inner.get c.ip with
  | none =>
    rw [AbuseTable.hasRoom_of_none hget]
    dsimp only
    by_cases hfull : l.inner.len ≥ maxEntries
    · have hlive : (AbuseTable.live l.inner c.now l.window).get c.ip = none := by
        rw [AbuseTable.get_live, hget]
        rfl
      rw [if_pos hfull, or_iff_right (not_lt.mpr hfull)]
      have hlen := AbuseTable.len_insert_of_none hlive (1, c.now)
      change ((AbuseTable.live l.inner c.now l.window).insert c.ip (1, c.now)).len ≤ maxEntries ↔ _
      rw [hlen]
      exact Nat.succ_le_iff
    · rw [if_neg hfull]
      have hroom := not_le.mp hfull
      refine iff_of_true ?_ (.inl hroom)
      unfold AbuseTable.Fits
      rw [AbuseTable.len_insert_of_none hget]
      exact hroom
  | some x =>
    refine iff_of_true ?_ (AbuseTable.hasRoom_of_some hget)
    unfold AbuseTable.Fits at hfits ⊢
    dsimp only
    split
    · rw [AbuseTable.len_insert_of_some hget]
      exact hfits
    · split
      · rw [AbuseTable.len_insert_of_some hget]
        exact hfits
      · exact hfits

end RateLimiter

/-! ## The table of failed logins -/

/-- The functions of the server that change the table of failed logins. -/
inductive LoginFailuresOp where
  | loginAllowed
  | recordLoginFailure
  | clearLoginFailures
  deriving DecidableEq

/-- A call of one of them. -/
structure LoginFailuresCall where
  op : LoginFailuresOp
  ip : IpAddr
  now : Instant

namespace ServerState

/-- The state after a call. -/
def call (st : ServerState) (c : LoginFailuresCall) : ServerState :=
  match c.op with
  | .loginAllowed => ((st.clockAt c.now).loginAllowed c.ip).1
  | .recordLoginFailure => (st.clockAt c.now).recordLoginFailure c.ip
  | .clearLoginFailures => (st.clockAt c.now).clearLoginFailures c.ip

/-- The table of failed logins. -/
def failureTable (st : ServerState) : AbuseTable := st.loginFailures

variable {st : ServerState} {ip : IpAddr}

/-- `record_login_failure` keeps the table within its limit exactly when it finds room for the address. -/
lemma fits_recordLoginFailure_iff (st : ServerState) (ip : IpAddr) (hfits : st.failureTable.Fits) :
    (st.recordLoginFailure ip).failureTable.Fits ↔
      st.failureTable.HasRoom st.now (fromSecs loginFailureWindow) ip := by
  unfold recordLoginFailure failureTable AbuseTable.Fits at *
  cases hget : st.loginFailures.get ip with
  | none =>
    have hlen := AbuseTable.len_insert_of_none hget (1, st.now)
    have hwindow : st.now - (1, st.now).2 < fromSecs loginFailureWindow := by
      dsimp only
      rw [Nat.sub_self]
      decide
    have hlive := AbuseTable.len_live_insert hget hwindow
    rw [AbuseTable.hasRoom_of_none hget]
    dsimp only
    by_cases hfull : st.loginFailures.len < RateLimiter.maxEntries
    · rw [if_neg (by rw [hlen]; exact not_lt.mpr hfull), hlen]
      exact iff_of_true hfull (.inl hfull)
    · rw [if_pos (by rw [hlen]; exact Nat.lt_succ_of_le (not_lt.mp hfull)), or_iff_right hfull]
      change ((AbuseTable.live (st.loginFailures.insert ip (1, st.now)) st.now _).len ≤ _) ↔ _
      rw [hlive]
      exact Nat.succ_le_iff
  | some x =>
    refine iff_of_true ?_ (AbuseTable.hasRoom_of_some hget)
    have hsame : ∀ y, ¬ (st.loginFailures.insert ip y).len > 4096 := by
      intro y
      rw [AbuseTable.len_insert_of_some hget]
      exact not_lt.mpr hfits
    obtain ⟨count, start⟩ := x
    dsimp only
    split
    · rw [if_neg (hsame _)]
      exact not_lt.mp (hsame _)
    · rw [if_neg (hsame _)]
      exact not_lt.mp (hsame _)

/-- The other calls add no entry. -/
lemma fits_call (st : ServerState) (c : LoginFailuresCall) (hop : c.op ≠ .recordLoginFailure)
    (hfits : st.failureTable.Fits) : (st.call c).failureTable.Fits := by
  have hremove : (st.loginFailures.remove c.ip).len ≤ st.loginFailures.len :=
    HashMap.len_le_of_get (k := c.ip) (P := True) fun k => by simp [HashMap.get_remove]
  unfold AbuseTable.Fits failureTable at *
  unfold call
  cases hc : c.op with
  | recordLoginFailure => exact absurd hc hop
  | clearLoginFailures => exact hremove.trans hfits
  | loginAllowed =>
    unfold loginAllowed clockAt
    dsimp only
    cases st.loginFailures.get c.ip with
    | none => exact hfits
    | some x =>
      dsimp only
      split
      · exact hfits
      · exact hremove.trans hfits

end ServerState

/-! ## The limit -/

namespace AbuseTable

/-- After each call of a list the table of the limiter is within its limit. -/
def LimiterBounded (max window : ℕ) (cs : List RateLimiter.Call) : Prop :=
  ∀ x ∈ visits (fun l c => (RateLimiter.allow l c.ip c.now).1) (.new max window) cs,
    Fits (x.1.allow x.2.ip x.2.now).1.inner

/-- After each `record_login_failure` of a list the table of failed logins is within its limit. -/
def LoginsBounded (cs : List LoginFailuresCall) : Prop :=
  ∀ x ∈ visits ServerState.call .new cs, x.2.op = .recordLoginFailure →
    (x.1.call x.2).failureTable.Fits

/-- The tables stay within their limit in exactly those lists of calls in which every address finds room:
it has an entry, or the table is not full, or the window of an entry is over. -/
theorem abuse_tables_bounded_iff (max window : ℕ) (calls : List RateLimiter.Call)
    (logins : List LoginFailuresCall) :
    (LimiterBounded max window calls ↔
      ∀ x ∈ visits (fun l c => (RateLimiter.allow l c.ip c.now).1) (.new max window) calls,
        HasRoom x.1.inner x.2.now x.1.window x.2.ip) ∧
    (LoginsBounded logins ↔
      ∀ x ∈ visits ServerState.call .new logins, x.2.op = .recordLoginFailure →
        x.1.failureTable.HasRoom x.2.now (fromSecs loginFailureWindow) x.2.ip) := by
  constructor
  · have hiff := fits_visits_iff _ RateLimiter.inner (fun _ => True)
      (fun l c => HasRoom l.inner c.now l.window c.ip) (fun l c hl _ => l.fits_allow_iff c hl)
      (fun _ _ _ h => absurd trivial h) calls (.new max window) (Nat.zero_le _)
    simp only [true_imp_iff] at hiff
    exact hiff
  · refine fits_visits_iff _ ServerState.failureTable (fun c => c.op = .recordLoginFailure)
      (fun st c => st.failureTable.HasRoom c.now (fromSecs loginFailureWindow) c.ip)
      (fun st c hst hop => ?_) (fun st c hst hop => st.fits_call c hop hst) logins .new (Nat.zero_le _)
    have hrecord := (st.clockAt c.now).fits_recordLoginFailure_iff c.ip hst
    unfold ServerState.call
    rw [hop]
    exact hrecord

/-! ## Many addresses at one time -/

/-- The first addresses. -/
def addresses (n : ℕ) : List IpAddr := (List.range n).map fun i => .v4 (BitVec.ofNat 32 i)

/-- The addresses differ, as long as there are so many. -/
lemma nodup_addresses {n : ℕ} (h : n ≤ 2 ^ 32) : (addresses n).Nodup := by
  refine List.Nodup.map_on (fun i hi j hj heq => ?_) List.nodup_range
  have hnat := congrArg BitVec.toNat (IpAddr.v4.inj heq)
  rw [BitVec.toNat_ofNat, BitVec.toNat_ofNat,
    Nat.mod_eq_of_lt ((List.mem_range.mp hi).trans_le h),
    Nat.mod_eq_of_lt ((List.mem_range.mp hj).trans_le h)] at hnat
  exact hnat

/-- A request of each of the addresses, at one time. -/
def burst (n : ℕ) : List RateLimiter.Call := (addresses n).map fun ip => ⟨ip, 0⟩

/-- A wrong token of each of the addresses, at one time. -/
def loginBurst (n : ℕ) : List LoginFailuresCall :=
  (addresses n).map fun ip => ⟨.recordLoginFailure, ip, 0⟩

/-- The entries of a time are live at that time. -/
lemma get_live_of_time {m : AbuseTable} {now window : ℕ} (hwindow : 0 < window)
    (h : ∀ ip x, m.get ip = some x → x.2 = now) (ip : IpAddr) :
    (m.live now window).get ip = m.get ip := by
  rw [get_live]
  cases hget : m.get ip with
  | none => rfl
  | some x =>
    refine (Option.filter_some ..).trans (if_pos (decide_eq_true ?_))
    rw [h ip x hget, Nat.sub_self]
    exact hwindow

/-- There are so many of them. -/
lemma length_addresses (n : ℕ) : (addresses n).length = n := by
  unfold addresses
  rw [List.length_map, List.length_range]

/-- Requests of as many addresses at one time make a table of that length. -/
lemma len_after_burst {n : ℕ} (h : n ≤ 2 ^ 32) (max : ℕ) {window : ℕ} (hwindow : 0 < window) :
    ((burst n).foldl (fun l c => (RateLimiter.allow l c.ip c.now).1) (.new max window)).inner.len =
      n := by
  unfold burst
  rw [List.foldl_map]
  refine (len_foldl_new RateLimiter.inner (fun l => 0 < l.window) 0 ?_ ?_ (addresses n) _ hwindow
    (nodup_addresses h) (fun _ _ => rfl) fun _ _ hx => by cases hx).trans ?_
  · intro l ip hl
    have hcounted := RateLimiter.allow_counted l ⟨ip, 0⟩
    have hlength := congrArg FailureWindow.length hcounted
    exact hl.trans_eq hlength.symm
  · intro l ip hl htime hnone k
    unfold RateLimiter.allow
    rw [hnone]
    dsimp only
    rw [HashMap.get_insert]
    split
    · rfl
    · split
      · exact get_live_of_time hl htime k
      · rfl
  · rw [length_addresses]
    exact Nat.zero_add n

/-- Wrong tokens of as many addresses make a table of failures of that length. -/
lemma len_after_loginBurst {n : ℕ} (h : n ≤ 2 ^ 32) :
    ((loginBurst n).foldl ServerState.call .new).failureTable.len = n := by
  unfold loginBurst
  rw [List.foldl_map]
  refine (len_foldl_new ServerState.failureTable (fun _ => True) 0 (fun _ _ _ => trivial) ?_
    (addresses n) _ trivial (nodup_addresses h) (fun _ _ => rfl) fun _ _ hx => by cases hx).trans ?_
  · intro st ip _ htime hnone k
    change st.loginFailures.get ip = none at hnone
    have hinsert : ∀ k', (st.loginFailures.insert ip (1, 0)).get k' =
        if k' = ip then some (1, 0) else st.loginFailures.get k' := fun k' => HashMap.get_insert ..
    unfold ServerState.call ServerState.recordLoginFailure ServerState.failureTable ServerState.clockAt
    dsimp only
    rw [hnone]
    dsimp only
    split
    · refine (get_live_of_time (m := st.loginFailures.insert ip (1, 0)) (by decide) ?_ k).trans
        (hinsert k)
      intro k' x hx
      rw [hinsert] at hx
      split at hx
      · cases hx
        rfl
      · exact htime k' x hx
    · exact hinsert k
  · rw [length_addresses]
    exact Nat.zero_add n

/-- After a request, or a wrong token, of 4097 addresses within a minute, the table holds them all. -/
theorem abuse_tables_unbounded :
    ¬ (∀ max window cs, LimiterBounded max window cs) ∧ ¬ (∀ cs, LoginsBounded cs) := by
  constructor
  · intro h
    have hfits := fits_foldl _ RateLimiter.inner (fun _ => True) (burst 4097) (.new 100 60000)
      (Nat.zero_le _) (fun _ _ => trivial) fun x hx _ => h 100 60000 (burst 4097) x hx
    unfold Fits at hfits
    rw [len_after_burst (by decide) 100 (by decide)] at hfits
    exact absurd hfits (by decide)
  · intro h
    have hfits := fits_foldl ServerState.call ServerState.failureTable
      (fun c => c.op = .recordLoginFailure) (loginBurst 4097) .new (Nat.zero_le _) (fun c hc => by
        obtain ⟨ip, -, rfl⟩ := List.mem_map.mp hc
        rfl) (h (loginBurst 4097))
    unfold Fits at hfits
    rw [len_after_loginBurst (by decide)] at hfits
    exact absurd hfits (by decide)

end AbuseTable

end Rfrp
