import Mathlib.Data.List.Induction
import Mathlib.Data.Rat.Floor
import Mathlib.Logic.Function.Basic
import Mathlib.Tactic.Linarith
import SynGateway.Python.Num

/-!
# The request rate limiter

A fixed window per key. For every key the limiter stores one pair, the start of the window it last
counted in and the count there; `check` reads the clock, and admits the request unless the pair is
of the present window and its count has reached the limit. The whole of `check` runs under one lock,
with no suspension inside, so a call is one step of the limiter.

The second half says what the limiter is for, over the whole history of calls: a call is admitted
exactly when fewer than `limit` earlier calls of its key were admitted in its window. The invariant
`Tracks` says which part of the history the stored pair carries: the number of admitted calls in the
*latest* window of the key. With a clock that never goes back, that is the only window that a later
call can still fall in.
-/

namespace SynGateway.Core.RateLimit

open SynGateway.Python

/-- Result of a rate-limit check. -/
structure RateLimitResult where
  allowed : Bool
  /-- Requests remaining in the current window; `-1` if unlimited. -/
  remaining : ℤ
  /-- Seconds until the window resets; `0` if allowed. -/
  retryAfterSeconds : ℤ
deriving DecidableEq, Repr

/-- Process-local limiter: the window length, and for each key `(window_start, count)`. -/
structure RateLimiter (κ : Type*) where
  windowSeconds : ℚ
  windows : κ → Option (ℚ × ℤ)

variable {κ : Type*} [DecidableEq κ]

namespace RateLimiter

/-- `RateLimiter(window_seconds)`, with nothing counted. -/
def new (windowSeconds : ℚ) : RateLimiter κ := { windowSeconds, windows := fun _ => none }

/-- `self._windows[key] = entry`. -/
def store (self : RateLimiter κ) (key : κ) (entry : ℚ × ℤ) : RateLimiter κ :=
  { self with windows := Function.update self.windows key (some entry) }

/-- `now - (now % self._window_seconds)`. -/
def windowStart (self : RateLimiter κ) (now : ℚ) : ℚ := now - mod now self.windowSeconds

/-- Check whether a request for `key` is allowed under `limit`, with the clock at `now`. -/
def check (self : RateLimiter κ) (now : ℚ) (key : κ) (limit : ℤ) :
    RateLimitResult × RateLimiter κ :=
  if limit ≤ 0 then
    ({ allowed := true, remaining := -1, retryAfterSeconds := 0 }, self)
  else
    let windowStart := self.windowStart now
    match self.windows key with
    | none =>
      ({ allowed := true, remaining := limit - 1, retryAfterSeconds := 0 },
        self.store key (windowStart, 1))
    | some (start, count) =>
      if start ≠ windowStart then
        ({ allowed := true, remaining := limit - 1, retryAfterSeconds := 0 },
          self.store key (windowStart, 1))
      else if count ≥ limit then
        let retryAfter := int (windowStart + self.windowSeconds - now)
        ({ allowed := false, remaining := 0,
           retryAfterSeconds := if retryAfter < 1 then 1 else retryAfter }, self)
      else
        ({ allowed := true, remaining := limit - count - 1, retryAfterSeconds := 0 },
          self.store key (windowStart, count + 1))

/-- The current window count for a key. -/
def currentCount (self : RateLimiter κ) (now : ℚ) (key : κ) : ℤ :=
  match self.windows key with
  | none => 0
  | some (start, count) => if start ≠ self.windowStart now then 0 else count

variable (self : RateLimiter κ) (now : ℚ) (key k : κ) (limit : ℤ)

/-- A stored count leaves the length of the window. -/
@[simp] theorem store_windowSeconds (entry : ℚ × ℤ) :
    (self.store key entry).windowSeconds = self.windowSeconds := rfl

/-- A stored count is found. -/
@[simp] theorem store_self (entry : ℚ × ℤ) :
    (self.store key entry).windows key = some entry := Function.update_self ..

/-- A stored count leaves those of the other keys. -/
@[simp] theorem store_other (entry : ℚ × ℤ) (h : k ≠ key) :
    (self.store key entry).windows k = self.windows k := Function.update_of_ne h ..

/-! ## What one call does -/

/-- An unlimited call is admitted and leaves the limiter alone. -/
theorem check_of_nonpos (h : limit ≤ 0) :
    self.check now key limit =
      ({ allowed := true, remaining := -1, retryAfterSeconds := 0 }, self) := by
  unfold check
  exact if_pos h

/-- A limited call in terms of the count of its window: below the limit it is admitted and counted,
otherwise it is refused and the limiter stays as it was. -/
theorem check_of_pos (h : 0 < limit) :
    (self.currentCount now key < limit →
      self.check now key limit =
        ({ allowed := true, remaining := limit - self.currentCount now key - 1,
           retryAfterSeconds := 0 },
         self.store key (self.windowStart now, self.currentCount now key + 1))) ∧
    (limit ≤ self.currentCount now key →
      ∃ retryAfter, self.check now key limit =
        ({ allowed := false, remaining := 0, retryAfterSeconds := retryAfter }, self)) := by
  unfold check currentCount
  rw [if_neg (not_le.mpr h)]
  cases self.windows key with
  | none => exact ⟨fun _ => by simp, fun hle => absurd hle (not_le.mpr h)⟩
  | some entry =>
      obtain ⟨start, count⟩ := entry
      -- a count of another window is taken for zero
      by_cases hstart : start = self.windowStart now
      · simp only [hstart, ne_eq, not_true_eq_false, if_false, ge_iff_le]
        refine ⟨fun hlt => if_neg (not_le.mpr hlt), fun hle => ⟨_, if_pos hle⟩⟩
      · simp only [ne_eq, hstart, not_false_eq_true, if_true]
        exact ⟨fun _ => by simp, fun hle => absurd hle (not_le.mpr h)⟩

/-- The outcome of a call depends on the stored pair of its own key only. -/
theorem check_congr {self other : RateLimiter κ}
    (hwindow : self.windowSeconds = other.windowSeconds)
    (hkey : self.windows key = other.windows key) :
    (self.check now key limit).1 = (other.check now key limit).1 ∧
      (self.check now key limit).2.windows key = (other.check now key limit).2.windows key := by
  unfold check windowStart
  rw [hwindow, hkey]
  by_cases h : limit ≤ 0
  · simp only [h, if_true]
    exact ⟨trivial, hkey⟩
  · simp only [h, if_false]
    split
    · exact ⟨rfl, by simp⟩
    · split
      · exact ⟨rfl, by simp⟩
      · split
        · exact ⟨rfl, hkey⟩
        · exact ⟨rfl, by simp⟩

/-- A call never touches another key, nor the window length. -/
theorem check_frame (h : k ≠ key) :
    (self.check now key limit).2.windows k = self.windows k := by
  unfold check
  by_cases hlim : limit ≤ 0
  · simp [hlim]
  · simp only [hlim, if_false]
    split
    · simp [h]
    · split
      · simp [h]
      · split
        · rfl
        · simp [h]

/-- A check leaves the length of the window. -/
@[simp] theorem check_windowSeconds :
    (self.check now key limit).2.windowSeconds = self.windowSeconds := by
  unfold check
  by_cases hlim : limit ≤ 0
  · simp [hlim]
  · simp only [hlim, if_false]
    split
    · rfl
    · split
      · rfl
      · split <;> rfl

end RateLimiter

/-! ## Histories of calls -/

/-- A call of `check`, with the reading of the clock it makes. -/
structure Call (κ : Type*) where
  now : ℚ
  key : κ
  limit : ℤ
deriving DecidableEq

/-- The limiter after some calls, and the calls with their results in the order they were made. -/
structure Served (κ : Type*) where
  limiter : RateLimiter κ
  log : List (Call κ × RateLimitResult)

/-- Make one more call. -/
def Served.call (s : Served κ) (c : Call κ) : Served κ where
  limiter := (s.limiter.check c.now c.key c.limit).2
  log := s.log ++ [(c, (s.limiter.check c.now c.key c.limit).1)]

/-- All calls made in turn on a new limiter. -/
def served (windowSeconds : ℚ) (calls : List (Call κ)) : Served κ :=
  calls.foldl Served.call { limiter := .new windowSeconds, log := [] }

/-- The result of a call made after the calls `before`. -/
def resultAfter (windowSeconds : ℚ) (before : List (Call κ)) (c : Call κ) : RateLimitResult :=
  ((served windowSeconds before).limiter.check c.now c.key c.limit).1

/-- The window that a moment falls in. -/
def window (windowSeconds now : ℚ) : ℤ := ⌊now / windowSeconds⌋

/-- `e` is an allowed call of `key` with a positive limit. -/
def Counted (key : κ) (e : Call κ × RateLimitResult) : Prop :=
  e.1.key = key ∧ 0 < e.1.limit ∧ e.2.allowed = true

instance (key : κ) : DecidablePred (Counted key) := fun _ => inferInstanceAs (Decidable (_ ∧ _))

/-- The number of allowed calls of `key` with a positive limit in window `w` of the history. -/
def admittedIn (windowSeconds : ℚ) (log : List (Call κ × RateLimitResult)) (key : κ) (w : ℤ) : ℕ :=
  log.countP fun e => Counted key e ∧ window windowSeconds e.1.now = w

/-- The number of allowed calls of `key` with a positive limit at a time in `[a, b)`. -/
def admittedBetween (log : List (Call κ × RateLimitResult)) (key : κ) (a b : ℚ) : ℕ :=
  log.countP fun e => Counted key e ∧ a ≤ e.1.now ∧ e.1.now < b

/-- The clock never goes back. -/
def Chronological (calls : List (Call κ)) : Prop := calls.Pairwise fun a b => a.now ≤ b.now

/-- The last call is served in the state that the others left. -/
@[simp] theorem served_snoc (W : ℚ) (calls : List (Call κ)) (c : Call κ) :
    served W (calls ++ [c]) = (served W calls).call c := by
  unfold served
  rw [List.foldl_append]
  rfl

/-- The length of the window is the one that it was built with. -/
@[simp] theorem served_windowSeconds (W : ℚ) (calls : List (Call κ)) :
    (served W calls).limiter.windowSeconds = W := by
  induction calls using List.reverseRecOn with
  | nil => rfl
  | append_singleton calls c ih =>
      rw [served_snoc]
      exact (RateLimiter.check_windowSeconds ..).trans ih

/-- The log holds the calls that were made. -/
theorem served_log_map (W : ℚ) (calls : List (Call κ)) :
    (served W calls).log.map Prod.fst = calls := by
  induction calls using List.reverseRecOn with
  | nil => rfl
  | append_singleton calls c ih =>
      rw [served_snoc, Served.call, List.map_append, ih]
      rfl

/-- The log holds calls that were made. -/
theorem mem_of_mem_log {W : ℚ} {calls : List (Call κ)} {e : Call κ × RateLimitResult}
    (h : e ∈ (served W calls).log) : e.1 ∈ calls := by
  rw [← served_log_map W calls]
  exact List.mem_map_of_mem h

/-! ## The stored pair carries the latest window of the history -/

omit [DecidableEq κ] in
/-- The window start that the code computes is the start of the window. -/
theorem windowStart_eq (self : RateLimiter κ) (now : ℚ) :
    self.windowStart now = self.windowSeconds * window self.windowSeconds now :=
  sub_mod now self.windowSeconds

variable {W : ℚ} {log : List (Call κ × RateLimitResult)} {e : Call κ × RateLimitResult} {key : κ}
  {w : ℤ}

/-- Later times have later windows. -/
theorem window_mono (hW : 0 < W) {s t : ℚ} (h : s ≤ t) : window W s ≤ window W t :=
  Int.floor_le_floor ((div_le_div_iff_of_pos_right hW).mpr h)

/-- Nothing was admitted in a window without counted calls. -/
theorem admittedIn_eq_zero (h : ∀ e ∈ log, Counted key e → window W e.1.now ≠ w) :
    admittedIn W log key w = 0 := by
  unfold admittedIn
  rw [List.countP_eq_zero]
  intro e he hcount
  obtain ⟨hc, hw⟩ := of_decide_eq_true hcount
  exact h e he hc hw

/-- What was admitted in a window is some call of it. -/
theorem exists_of_admittedIn_pos (h : 0 < admittedIn W log key w) :
    ∃ e ∈ log, Counted key e ∧ window W e.1.now = w := by
  obtain ⟨e, he, hcount⟩ := List.countP_pos_iff.mp h
  exact ⟨e, he, of_decide_eq_true hcount⟩

/-- A call that is not counted for the key changes nothing about the key's history. -/
theorem admittedIn_snoc_of_not (h : ¬ Counted key e) :
    admittedIn W (log ++ [e]) key w = admittedIn W log key w := by
  unfold admittedIn
  rw [List.countP_append]
  simp [h]

/-- A counted call is one more in its window. -/
theorem admittedIn_snoc_of_counted (h : Counted key e) :
    admittedIn W (log ++ [e]) key (window W e.1.now) =
      admittedIn W log key (window W e.1.now) + 1 := by
  unfold admittedIn
  rw [List.countP_append]
  simp [h]

/-- What an entry says about the history: its count is the number of calls admitted in its window,
which is the latest window that the key was admitted in. -/
structure Tracks (W : ℚ) (log : List (Call κ × RateLimitResult)) (key : κ) (entry : ℚ × ℤ)
    (w : ℤ) : Prop where
  start : entry.1 = W * w
  count : entry.2 = admittedIn W log key w
  pos : 0 < admittedIn W log key w
  latest : ∀ e ∈ log, Counted key e → window W e.1.now ≤ w

/-- A key without an entry was never counted, and an entry tracks. -/
def Carries (W : ℚ) (log : List (Call κ × RateLimitResult)) (key : κ) : Option (ℚ × ℤ) → Prop
  | none => ∀ e ∈ log, ¬ Counted key e
  | some entry => ∃ w, Tracks W log key entry w

/-- The invariant of the limiter. -/
def Represents (W : ℚ) (log : List (Call κ × RateLimitResult)) (self : RateLimiter κ) : Prop :=
  ∀ key, Carries W log key (self.windows key)

/-- A call that is not counted for the key leaves its entry right. -/
theorem Carries.snoc_of_not {entry : Option (ℚ × ℤ)} (h : Carries W log key entry)
    (hnot : ¬ Counted key e) : Carries W (log ++ [e]) key entry := by
  cases entry with
  | none =>
      intro f hf
      rcases List.mem_append.mp hf with hf | hf
      · exact h f hf
      · exact List.mem_singleton.mp hf ▸ hnot
  | some entry =>
      obtain ⟨w, htracks⟩ := h
      refine ⟨w, htracks.start, ?_, ?_, fun f hf hc => ?_⟩
      · -- a call that was not admitted for the key changes no count of it
        rw [admittedIn_snoc_of_not hnot]
        exact htracks.count
      · rw [admittedIn_snoc_of_not hnot]
        exact htracks.pos
      · rcases List.mem_append.mp hf with hf | hf
        · exact htracks.latest f hf hc
        · exact absurd (List.mem_singleton.mp hf ▸ hc) hnot

/-- Counting a call at the present time makes its window the latest one. -/
theorem carries_snoc_of_counted (hW : 0 < W) (hnow : ∀ f ∈ log, f.1.now ≤ e.1.now)
    (hc : Counted key e) :
    Carries W (log ++ [e]) key
      (some (W * window W e.1.now, (admittedIn W log key (window W e.1.now) : ℤ) + 1)) := by
  refine ⟨window W e.1.now, rfl, ?_, ?_, fun f hf _ => ?_⟩
  · rw [admittedIn_snoc_of_counted hc]
    push_cast
    rfl
  · rw [admittedIn_snoc_of_counted hc]
    exact Nat.succ_pos _
  · rcases List.mem_append.mp hf with hf | hf
    · exact window_mono hW (hnow f hf)
    · exact (List.mem_singleton.mp hf) ▸ le_rfl

/-- **The count that the code reads is the count of the history**, with the clock at or past every
call. -/
theorem currentCount_eq (hW : 0 < W) {self : RateLimiter κ} (hlen : self.windowSeconds = W)
    (hrep : Represents W log self) {now : ℚ} (hnow : ∀ e ∈ log, e.1.now ≤ now) (key : κ) :
    self.currentCount now key = admittedIn W log key (window W now) := by
  have hkey := hrep key
  unfold RateLimiter.currentCount
  cases hentry : self.windows key with
  | none =>
      rw [hentry] at hkey
      rw [admittedIn_eq_zero fun e he hc => absurd hc (hkey e he)]
      rfl
  | some entry =>
      rw [hentry] at hkey
      obtain ⟨w, htracks⟩ := hkey
      obtain ⟨e, he, -, hew⟩ := exists_of_admittedIn_pos htracks.pos
      have hle : w ≤ window W now := hew ▸ window_mono hW (hnow e he)
      rw [windowStart_eq, hlen]
      by_cases hw : w = window W now
      · have hstart : entry.1 = W * (window W now : ℚ) := hw ▸ htracks.start
        simp only [hstart, ne_eq, not_true_eq_false, if_false]
        rw [htracks.count, hw]
      · have hstart : entry.1 ≠ W * (window W now : ℚ) := by
          rw [htracks.start]
          intro heq
          exact hw (Int.cast_injective (mul_left_cancel₀ hW.ne' heq))
        simp only [hstart, ne_eq, not_false_eq_true, if_true]
        -- the stored window lies before the present one, so nothing was admitted in this one yet
        have hlt : w < window W now := lt_of_le_of_ne hle hw
        rw [admittedIn_eq_zero fun f hf hc => (lt_of_le_of_lt (htracks.latest f hf hc) hlt).ne]
        rfl

/-- A call keeps the invariant. -/
theorem Represents.call (hW : 0 < W) {s : Served κ} (hlen : s.limiter.windowSeconds = W)
    (hrep : Represents W s.log s.limiter) (c : Call κ) (hnow : ∀ e ∈ s.log, e.1.now ≤ c.now) :
    Represents W (s.call c).log (s.call c).limiter := by
  intro key
  unfold Served.call
  by_cases hkey : key = c.key
  · subst hkey
    by_cases hlim : c.limit ≤ 0
    · rw [RateLimiter.check_of_nonpos _ _ _ _ hlim]
      exact (hrep c.key).snoc_of_not fun hc => absurd hc.2.1 (not_lt.mpr hlim)
    -- admitted exactly while the count of the window is below the limit
    obtain ⟨hallow, hrefuse⟩ := s.limiter.check_of_pos c.now c.key c.limit (not_le.mp hlim)
    rcases lt_or_ge (s.limiter.currentCount c.now c.key) c.limit with hlt | hge
    · rw [hallow hlt, RateLimiter.store_self, windowStart_eq, hlen,
        currentCount_eq hW hlen hrep hnow]
      exact carries_snoc_of_counted hW hnow ⟨rfl, not_le.mp hlim, rfl⟩
    · obtain ⟨retryAfter, hresult⟩ := hrefuse hge
      rw [hresult]
      exact (hrep c.key).snoc_of_not fun hc => absurd hc.2.2 Bool.false_ne_true
  · -- a call for another key is no call for this one
    rw [RateLimiter.check_frame _ _ _ _ _ hkey]
    exact (hrep key).snoc_of_not fun hc => hkey hc.1.symm

omit [DecidableEq κ] in
/-- The calls before the last one were not made later. -/
theorem Chronological.le_last {calls : List (Call κ)} {c : Call κ}
    (h : Chronological (calls ++ [c])) : ∀ d ∈ calls, d.now ≤ c.now := by
  intro d hd
  exact (List.pairwise_append.mp h).2.2 d hd c (List.mem_singleton_self c)

omit [DecidableEq κ] in

/-- What was called so far is chronological too. -/
theorem Chronological.of_prefix {before calls : List (Call κ)} (h : Chronological calls)
    (hpre : before <+: calls) : Chronological before :=
  h.sublist hpre.sublist

/-- **The limiter carries what later calls need of the history**, after every chronological history.
-/
theorem served_represents (hW : 0 < W) {calls : List (Call κ)} (hchron : Chronological calls) :
    Represents W (served W calls).log (served W calls).limiter := by
  induction calls using List.reverseRecOn with
  | nil =>
      intro key e he
      exact absurd he List.not_mem_nil
  | append_singleton calls c ih =>
      rw [served_snoc]
      refine (ih (hchron.of_prefix (List.prefix_append _ _))).call hW
        (served_windowSeconds W calls) c ?_
      intro e he
      exact hchron.le_last e.1 (mem_of_mem_log he)

/-- The limiter reads off the number of calls admitted in the present window. -/
theorem served_currentCount (hW : 0 < W) {before : List (Call κ)} {c : Call κ}
    (hchron : Chronological (before ++ [c])) :
    (served W before).limiter.currentCount c.now c.key =
      admittedIn W (served W before).log c.key (window W c.now) := by
  refine currentCount_eq hW (served_windowSeconds W before)
    (served_represents hW (hchron.of_prefix (List.prefix_append _ _))) ?_ c.key
  intro e he
  exact hchron.le_last e.1 (mem_of_mem_log he)

/-! ## Other keys -/

/-- Dropping the calls of all other keys leaves the entry of a key as it is. -/
theorem served_filter (W : ℚ) (calls : List (Call κ)) (key : κ) :
    (served W (calls.filter (·.key = key))).limiter.windows key =
      (served W calls).limiter.windows key := by
  induction calls using List.reverseRecOn with
  | nil => rfl
  | append_singleton calls c ih =>
      rw [List.filter_append, served_snoc]
      by_cases hkey : c.key = key
      · rw [List.filter_cons_of_pos (by simpa using hkey), List.filter_nil, served_snoc]
        subst hkey
        exact (RateLimiter.check_congr _ _ _ (by simp) ih).2
      · rw [List.filter_cons_of_neg (by simpa using hkey), List.filter_nil, List.append_nil, ih]
        exact (RateLimiter.check_frame _ _ _ _ _ (Ne.symm hkey)).symm

/-- The result of a call depends on the earlier calls of its key only. -/
theorem resultAfter_filter (W : ℚ) (before : List (Call κ)) (c : Call κ) :
    resultAfter W before c = resultAfter W (before.filter (·.key = c.key)) c :=
  (RateLimiter.check_congr _ _ _ (by simp) (served_filter W before c.key).symm).1

/-! ## Bounds under a constant limit -/

/-- Under a constant limit no window admits more calls of the key. -/
theorem admittedIn_le (hW : 0 < W) {calls : List (Call κ)} (hchron : Chronological calls)
    {limit : ℤ} (hpos : 0 < limit) (hlimit : ∀ c ∈ calls, c.key = key → c.limit = limit) (w : ℤ) :
    (admittedIn W (served W calls).log key w : ℤ) ≤ limit := by
  induction calls using List.reverseRecOn with
  | nil => exact hpos.le
  | append_singleton calls c ih =>
      have hbefore := ih (hchron.of_prefix (List.prefix_append _ _)) fun d hd =>
        hlimit d (List.mem_append_left _ hd)
      have hcount := served_currentCount hW hchron
      rw [served_snoc, Served.call]
      by_cases hc : Counted key (c, ((served W calls).limiter.check c.now c.key c.limit).1)
      · by_cases hw : window W c.now = w
        · -- an admitted call found fewer than `limit` calls in its window
          obtain ⟨rfl, hlim, hallowed⟩ := hc
          have hclimit : c.limit = limit := hlimit c (by simp) rfl
          obtain ⟨-, hrefuse⟩ := (served W calls).limiter.check_of_pos c.now c.key c.limit hlim
          have hlt : (served W calls).limiter.currentCount c.now c.key < c.limit := by
            by_contra hge
            obtain ⟨retryAfter, hresult⟩ := hrefuse (not_lt.mp hge)
            rw [hresult] at hallowed
            exact Bool.false_ne_true hallowed
          subst hw
          rw [admittedIn_snoc_of_counted ⟨rfl, hlim, hallowed⟩]
          push_cast
          omega
        · refine le_trans (Int.ofNat_le.mpr (le_of_eq ?_)) hbefore
          unfold admittedIn
          rw [List.countP_append]
          simp [hw]
      · rw [admittedIn_snoc_of_not hc]
        exact hbefore

/-- A half-open interval as long as a window meets two windows at most. -/
theorem window_of_mem (hW : 0 < W) {a t : ℚ} (ha : a ≤ t) (ht : t < a + W) :
    window W t = window W a ∨ window W t = window W a + 1 := by
  have hlow : window W a ≤ window W t := window_mono hW ha
  have hhigh : window W t ≤ window W (a + W) := window_mono hW ht.le
  have hshift : window W (a + W) = window W a + 1 := by
    unfold window
    rw [add_div, div_self hW.ne', Int.floor_add_one]
  omega

/-- The calls in an interval are among those of the two windows it meets. -/
theorem admittedBetween_le (hW : 0 < W) (log : List (Call κ × RateLimitResult)) (key : κ) (a : ℚ) :
    admittedBetween log key a (a + W) ≤
      admittedIn W log key (window W a) + admittedIn W log key (window W a + 1) := by
  unfold admittedBetween admittedIn
  induction log with
  | nil => simp
  | cons e log ih =>
      simp only [List.countP_cons, decide_eq_true_eq]
      have hmem := window_of_mem (t := e.1.now) hW (a := a)
      split_ifs <;> first | omega | grind

/-- **The rate limiter refines its history specification.** -/
theorem check_refines_history (hW : 0 < W) (calls : List (Call κ)) (hchron : Chronological calls) :
    (∀ before c, before ++ [c] <+: calls →
      (c.limit ≤ 0 →
        (resultAfter W before c).allowed = true ∧
          ((served W before).call c).limiter = (served W before).limiter) ∧
      (0 < c.limit →
        let earlier : ℤ := admittedIn W (served W before).log c.key (window W c.now)
        ((resultAfter W before c).allowed = true ↔ earlier < c.limit) ∧
          ((resultAfter W before c).allowed = true →
            (resultAfter W before c).remaining = c.limit - earlier - 1)) ∧
      resultAfter W before c = resultAfter W (before.filter (·.key = c.key)) c) ∧
    (∀ key limit, 0 < limit → (∀ c ∈ calls, c.key = key → c.limit = limit) →
      (∀ w, (admittedIn W (served W calls).log key w : ℤ) ≤ limit) ∧
      ∀ a, (admittedBetween (served W calls).log key a (a + W) : ℤ) ≤ 2 * limit) := by
  refine ⟨fun before c hpre => ⟨fun hlim => ?_, fun hlim => ?_, resultAfter_filter W before c⟩,
    fun key limit hpos hlimit => ⟨admittedIn_le hW hchron hpos hlimit, fun a => ?_⟩⟩
  · unfold resultAfter Served.call
    rw [RateLimiter.check_of_nonpos _ _ _ _ hlim]
    exact ⟨rfl, rfl⟩
  · have hcount := served_currentCount hW (hchron.of_prefix hpre)
    obtain ⟨hallow, hrefuse⟩ := (served W before).limiter.check_of_pos c.now c.key c.limit hlim
    rw [hcount] at hallow hrefuse
    unfold resultAfter
    rcases lt_or_ge (admittedIn W (served W before).log c.key (window W c.now) : ℤ) c.limit
      with hlt | hge
    · rw [hallow hlt]
      exact ⟨⟨fun _ => hlt, fun _ => rfl⟩, fun _ => rfl⟩
    · obtain ⟨retryAfter, hresult⟩ := hrefuse hge
      rw [hresult]
      exact ⟨⟨fun h => absurd h Bool.false_ne_true, fun h => absurd h (not_lt.mpr hge)⟩,
        fun h => absurd h Bool.false_ne_true⟩
  · -- an interval of this length meets two windows at most
    have hsplit := admittedBetween_le hW (served W calls).log key a
    have hfst := admittedIn_le hW hchron hpos hlimit (window W a)
    have hsnd := admittedIn_le hW hchron hpos hlimit (window W a + 1)
    omega

/-- Calls of two keys across a window boundary. -/
def minuteCalls : List (Call ℕ) := [⟨0, 1, 1⟩, ⟨10, 2, 5⟩, ⟨30, 1, 1⟩, ⟨60, 1, 1⟩]

/-- The sample calls are chronological. -/
theorem minuteCalls_chronological : Chronological minuteCalls := by
  unfold Chronological minuteCalls
  norm_num

/-- With one call a minute the second call of the key is refused, and the next minute's is admitted.
-/
theorem check_refines_history_minute :
    ((resultAfter 60 (minuteCalls.take 2) ⟨30, 1, 1⟩).allowed = true ↔
      (admittedIn 60 (served 60 (minuteCalls.take 2)).log 1 (window 60 30) : ℤ) < 1) ∧
    (resultAfter 60 (minuteCalls.take 2) ⟨30, 1, 1⟩).allowed = false ∧
    (resultAfter 60 (minuteCalls.take 3) ⟨60, 1, 1⟩).allowed = true ∧
    ∀ w, (admittedIn 60 (served 60 (minuteCalls.take 4)).log 2 w : ℤ) ≤ 5 := by
  have hrefines :=
    check_refines_history (W := 60) (by norm_num) minuteCalls minuteCalls_chronological
  refine ⟨((hrefines.1 (minuteCalls.take 2) ⟨30, 1, 1⟩ (by decide)).2.1 (by decide)).1,
    by decide +kernel, by decide +kernel, (hrefines.2 2 5 (by decide) (by decide)).1⟩

end SynGateway.Core.RateLimit
