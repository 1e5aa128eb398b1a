import SynGateway.Core.RateLimit

/-!
# Waiting as long as the limiter says

A refused call is told in how many seconds the window ends, as an integer. The integer is the time
that is left without its fraction, but at least one. So a caller who waits that long comes back in
the same window, and is refused again, unless less than a second was left or a whole number of
seconds (`retry_suffices_iff`).
-/

namespace SynGateway.Core.RateLimit

open SynGateway.Python

variable {κ : Type*} [DecidableEq κ]

/-- The time until the window of `now` ends. -/
def untilReset (W now : ℚ) : ℚ := W - mod now W

/-- What a refused call is told. -/
def retryAfter (W now : ℚ) : ℤ := if int (untilReset W now) < 1 then 1 else int (untilReset W now)

/-- The call again, after waiting as long as it was told. -/
def Call.retry (c : Call κ) (W : ℚ) : Call κ := { c with now := c.now + retryAfter W c.now }

variable {W now : ℚ}

/-- The remainder is not negative. -/
theorem mod_nonneg (hW : 0 < W) (now : ℚ) : 0 ≤ mod now W := by
  have hfloor := Int.floor_le (now / W)
  rw [le_div_iff₀ hW] at hfloor
  unfold mod
  linarith

/-- The remainder is below the window. -/
theorem mod_lt (hW : 0 < W) (now : ℚ) : mod now W < W := by
  have hfloor := Int.lt_floor_add_one (now / W)
  rw [div_lt_iff₀ hW] at hfloor
  unfold mod
  linarith

/-- The window ends in the future. -/
theorem untilReset_pos (hW : 0 < W) (now : ℚ) : 0 < untilReset W now := sub_pos.mpr (mod_lt hW now)

/-- The window ends within its length. -/
theorem untilReset_le (hW : 0 < W) (now : ℚ) :
    untilReset W now ≤ W := sub_le_self W (mod_nonneg hW now)

/-- The window ends at a multiple of its length. -/
theorem add_untilReset (W now : ℚ) : now + untilReset W now = W * (window W now + 1) := by
  have hstart := sub_mod now W
  unfold untilReset window
  linarith

/-! ## What is told -/

/-- `retry_after` is the number of whole seconds left, but at least one. -/
theorem retryAfter_eq (hW : 0 < W) (now : ℚ) : retryAfter W now = max 1 ⌊untilReset W now⌋ := by
  unfold retryAfter int
  rw [if_pos (untilReset_pos hW now).le]
  split_ifs with h <;> omega

/-- It is at least a second, and no more than the window rounded up. -/
theorem retryAfter_bounds (hW : 0 < W) (now : ℚ) :
    1 ≤ retryAfter W now ∧ retryAfter W now ≤ ⌈W⌉ := by
  rw [retryAfter_eq hW]
  refine ⟨le_max_left _ _, max_le (Int.one_le_ceil_iff.mpr hW) ?_⟩
  exact Int.le_of_lt_add_one (Int.floor_lt.mpr (lt_of_le_of_lt (untilReset_le hW now)
    (by push_cast; linarith [Int.le_ceil W])))

/-- It reaches the end of the window when at most a second is left, or whole seconds. -/
theorem untilReset_le_retryAfter_iff (hW : 0 < W) (now : ℚ) :
    untilReset W now ≤ retryAfter W now ↔ untilReset W now ≤ 1 ∨ ∃ n : ℤ, untilReset W now = n := by
  rw [retryAfter_eq hW, Int.cast_max, le_max_iff, Int.cast_one]
  apply or_congr Iff.rfl
  constructor
  · exact fun h => ⟨_, le_antisymm h (Int.floor_le _)⟩
  · rintro ⟨n, hn⟩
    rw [hn, Int.floor_intCast]

/-- The retry comes in a later window exactly if the wait reaches the end of the present one. -/
theorem window_retry_iff (hW : 0 < W) (now : ℚ) :
    window W (now + retryAfter W now) ≠ window W now ↔ untilReset W now ≤ retryAfter W now := by
  have hend := add_untilReset W now
  have hwait : (0 : ℚ) ≤ retryAfter W now := by
    have hone := (retryAfter_bounds hW now).1
    exact_mod_cast le_trans zero_le_one hone
  have hle : window W now ≤ window W (now + retryAfter W now) := window_mono hW (by linarith)
  have hlater : window W now + 1 ≤ window W (now + retryAfter W now) ↔
      W * (window W now + 1) ≤ now + retryAfter W now := by
    conv_lhs => rw [window]
    unfold window
    rw [Int.le_floor, le_div_iff₀ hW, mul_comm]
    push_cast
    rfl
  rw [← hend, add_le_add_iff_left] at hlater
  rw [← hlater]
  omega

/-! ## A refused call and its retry -/

namespace RateLimiter

variable {self : RateLimiter κ} {key : κ} {limit : ℤ}

/-- A refusal leaves the limiter as it is, whose pair for the key is of the present window and has
reached the limit. -/
theorem check_of_refused (h : (self.check now key limit).1.allowed = false) :
    0 < limit ∧ (self.check now key limit).2 = self ∧
      (∃ count, self.windows key = some (self.windowStart now, count) ∧ limit ≤ count) ∧
      (self.check now key limit).1.retryAfterSeconds = retryAfter self.windowSeconds now := by
  have hleft : self.windowStart now + self.windowSeconds - now =
      untilReset self.windowSeconds now := by
    unfold windowStart untilReset
    ring
  unfold check at h ⊢
  split_ifs at h ⊢ with hlimit
  refine ⟨not_le.mp hlimit, ?_⟩
  dsimp only at h ⊢
  cases hentry : self.windows key with
  | none =>
      rw [hentry] at h
      cases h
  | some entry =>
      obtain ⟨start, count⟩ := entry
      rw [hentry] at h
      dsimp only at h ⊢
      by_cases hstart : start = self.windowStart now
      · rw [if_neg (not_not_intro hstart)] at h ⊢
        -- a refusal in the window of the stored count; a new window would have admitted
        by_cases hcount : count ≥ limit
        · rw [if_pos hcount, hleft]
          exact ⟨rfl, ⟨count, by rw [hstart], hcount⟩, rfl⟩
        · rw [if_neg hcount] at h
          cases h
      · rw [if_pos hstart] at h
        cases h

/-- A pair that has reached the limit refuses the calls of its window, and no others. -/
theorem allowed_iff_of_full {start : ℚ} {count : ℤ}
    (hentry : self.windows key = some (start, count)) (hlimit : 0 < limit)
    (hcount : limit ≤ count) :
    (self.check now key limit).1.allowed = true ↔ self.windowStart now ≠ start := by
  unfold check
  rw [if_neg (not_le.mpr hlimit), hentry]
  dsimp only
  by_cases hstart : start = self.windowStart now
  · rw [if_neg (not_not_intro hstart), if_pos hcount]
    exact iff_of_false Bool.false_ne_true (not_not_intro hstart.symm)
  · rw [if_pos hstart]
    exact iff_of_true rfl (Ne.symm hstart)

end RateLimiter

/-- The calls of other keys leave the pair of a key as it is. -/
theorem served_others {before between : List (Call κ)} {key : κ}
    (hothers : ∀ d ∈ between, d.key ≠ key) :
    (served W (before ++ between)).limiter.windows key = (served W before).limiter.windows key := by
  have hnone : between.filter (·.key = key) = [] :=
    List.filter_eq_nil_iff.mpr fun d hd => by simpa using hothers d hd
  rw [← served_filter W (before ++ between), ← served_filter W before, List.filter_append, hnone,
    List.append_nil]

variable {before between : List (Call κ)} {c : Call κ}

/-- What a refused call was told. -/
theorem retryAfterSeconds_of_refused (hrefused : (resultAfter W before c).allowed = false) :
    (resultAfter W before c).retryAfterSeconds = retryAfter W c.now := by
  have htold := (RateLimiter.check_of_refused hrefused).2.2.2
  rwa [served_windowSeconds] at htold

/-- The retry is allowed exactly if it comes in a later window. -/
theorem allowed_retry_iff (hW : 0 < W) (hrefused : (resultAfter W before c).allowed = false)
    (hothers : ∀ d ∈ between, d.key ≠ c.key) :
    (resultAfter W (before ++ c :: between) (c.retry W)).allowed = true ↔
      window W (c.now + retryAfter W c.now) ≠ window W c.now := by
  obtain ⟨hlimit, hsame, ⟨count, hentry, hcount⟩, -⟩ := RateLimiter.check_of_refused hrefused
  have hleft : (served W (before ++ c :: between)).limiter.windows c.key =
      some ((served W before).limiter.windowStart c.now, count) := by
    have hcalled : (served W (before ++ [c])).limiter = (served W before).limiter := by
      rw [served_snoc]
      exact hsame
    have happend : before ++ c :: between = before ++ [c] ++ between := by simp
    rw [happend, served_others hothers, hcalled, hentry]
  refine (RateLimiter.allowed_iff_of_full hleft hlimit hcount).trans (not_congr ?_)
  rw [windowStart_eq, windowStart_eq, served_windowSeconds, served_windowSeconds]
  exact ⟨fun heq => Int.cast_injective (mul_left_cancel₀ hW.ne' heq),
    fun heq => congrArg (W * ·) (congrArg _ heq)⟩

/-- A caller who waits as long as told is allowed, whatever calls of other keys there are meanwhile,
and is told a reasonable time. -/
def RetrySuffices (W : ℚ) (before : List (Call κ)) (c : Call κ) : Prop :=
  let told := (resultAfter W before c).retryAfterSeconds
  (∀ between, (∀ d ∈ between, d.key ≠ c.key) →
    Chronological (before ++ c :: between ++ [{ c with now := c.now + told }]) →
    (resultAfter W (before ++ c :: between) { c with now := c.now + told }).allowed = true) ∧
  1 ≤ told ∧ told ≤ ⌈W⌉

/-- **When waiting suffices.** A refused call that waits as long as it was told is allowed exactly
if at most a second of its window was left, or a whole number of seconds. -/
theorem retry_suffices_iff (hW : 0 < W) (hchron : Chronological (before ++ [c]))
    (hrefused : (resultAfter W before c).allowed = false) :
    RetrySuffices W before c ↔ untilReset W c.now ≤ 1 ∨ ∃ n : ℤ, untilReset W c.now = n := by
  rw [← untilReset_le_retryAfter_iff hW, ← window_retry_iff hW]
  unfold RetrySuffices
  rw [retryAfterSeconds_of_refused hrefused]
  constructor
  · rintro ⟨hallowed, -⟩
    -- the retry may come right after the refusal, as far as the limiter is concerned
    refine (allowed_retry_iff hW hrefused (List.forall_mem_nil _)).mp
      (hallowed [] (List.forall_mem_nil _) ?_)
    refine List.pairwise_append.mpr ⟨hchron, List.pairwise_singleton _ _, fun d hd e he => ?_⟩
    obtain rfl := List.mem_singleton.mp he
    have hle : d.now ≤ c.now := by
      rcases List.mem_append.mp hd with hd | hd
      · exact hchron.le_last d hd
      · exact (List.mem_singleton.mp hd) ▸ le_rfl
    have hwait : (1 : ℚ) ≤ retryAfter W c.now := by exact_mod_cast (retryAfter_bounds hW c.now).1
    dsimp only
    linarith
  · intro hlater
    exact ⟨fun between hothers _ => (allowed_retry_iff hW hrefused hothers).mpr hlater,
      retryAfter_bounds hW c.now⟩

/-- Half a minute before the end of the window. -/
theorem retry_suffices_half : RetrySuffices 60 [⟨0, 1, 1⟩] (⟨30, 1, 1⟩ : Call ℕ) :=
  (retry_suffices_iff (by norm_num) (by unfold Chronological; norm_num) (by decide +kernel)).mpr
    (.inr ⟨30, by decide +kernel⟩)

/-- With 59.5 seconds left a call is told 59, and refused again when it comes back. -/
theorem retry_too_early : ¬ ∀ (W : ℚ) (before : List (Call ℕ)) (c : Call ℕ), 0 < W →
    Chronological (before ++ [c]) → (resultAfter W before c).allowed = false →
    RetrySuffices W before c := by
  intro hclaim
  have hsuffices :=
    hclaim 60 [⟨0, 1, 1⟩] ⟨1 / 2, 1, 1⟩ (by norm_num) (by unfold Chronological; norm_num)
    (by decide +kernel)
  have hallowed :=
    hsuffices.1 [] (List.forall_mem_nil _) (by unfold Chronological; norm_num; decide +kernel)
  revert hallowed
  decide +kernel

end SynGateway.Core.RateLimit
