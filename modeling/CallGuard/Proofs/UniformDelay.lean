import CallGuard.Backoff
/-! # The delays that a uniform backoff can give

A uniform delay is drawn in whole milliseconds from the bounds in whole milliseconds, both rounded
down, and each number of milliseconds between the two is drawn from some words. So the drawn delay
never passes the upper bound; but it can stay below the lower one by a part of a millisecond, and
does so for some words exactly if the lower bound has such a part. -/

namespace CallGuard

namespace Words

variable {range low high n : Nat}

theorem drawBelow_lt (hr : 0 < range) (w : Words) : (drawBelow range w).1 < range := by
  unfold drawBelow
  dsimp only
  split
  · exact scaled_lt hr w.next_lt (next_lt _)
  · exact scaled_lt hr w.next_lt (by decide)

theorem next_ofList (first : UInt64) (rest : List UInt64) :
    (ofList (first :: rest)).next.1 = first.toNat := by
  unfold next ofList
  simp

/-- A second word of zero never carries. -/
theorem drawBelow_ofList (first : UInt64) :
    (drawBelow range (ofList [first, 0])).1 = scaled range first.toNat 0 := by
  unfold drawBelow
  dsimp only
  rw [next_ofList]
  split <;> rfl

theorem scaled_zero (first : Nat) : scaled range first 0 = first * range / modulus := by
  unfold scaled
  have hlt : first * range % modulus < modulus := Nat.mod_lt _ (by decide)
  dsimp only
  rw [if_neg]
  rw [Nat.zero_mul, Nat.zero_div]
  omega

/-- Each number below the range is drawn from some words: the first has to be its share of all
words, rounded up. -/
theorem exists_drawBelow (hn : n < range) (hr : range < modulus) :
    ∃ w, (drawBelow range w).1 = n := by
  obtain ⟨first, hlow, hhigh⟩ :
      ∃ first, n * modulus ≤ first * range ∧ first * range < n * modulus + range := by
    refine ⟨(n * modulus + (range - 1)) / range, ?_, ?_⟩
    · have := Nat.lt_div_mul_add (a := n * modulus + (range - 1)) (show 0 < range by omega)
      omega
    · have := Nat.div_mul_le_self (n * modulus + (range - 1)) range
      omega
  have hnext : (n + 1) * modulus = n * modulus + modulus := Nat.succ_mul n modulus
  have hfirst : first < modulus := by
    refine Nat.lt_of_mul_lt_mul_right (a := range) (Nat.lt_of_lt_of_le hhigh ?_)
    have hmul : (n + 1) * modulus ≤ range * modulus := Nat.mul_le_mul_right _ hn
    rw [Nat.mul_comm modulus]
    omega
  have htoNat : (UInt64.ofNat first).toNat = first := UInt64.toNat_ofNat_of_lt' hfirst
  refine ⟨ofList [UInt64.ofNat first, 0], ?_⟩
  rw [drawBelow_ofList, scaled_zero, htoNat]
  exact Nat.div_eq_of_lt_le hlow (by omega)

/-- A draw gives the numbers from the lower to the upper bound, and no other. -/
theorem exists_drawBetween_iff (hle : low ≤ high) (hhigh : high < modulus) :
    (∃ w, (drawBetween low high w).1 = n) ↔ low ≤ n ∧ n ≤ high := by
  unfold drawBetween
  by_cases hall : high - low + 1 = modulus
  · simp only [if_pos hall]
    constructor
    · rintro ⟨w, rfl⟩
      have := w.next_lt
      omega
    · rintro ⟨-, hn⟩
      refine ⟨ofList [UInt64.ofNat n], ?_⟩
      rw [next_ofList]
      exact UInt64.toNat_ofNat_of_lt' (Nat.lt_of_le_of_lt hn hhigh)
  · simp only [if_neg hall]
    constructor
    · rintro ⟨w, rfl⟩
      have hlt : (drawBelow (high - low + 1) w).1 < high - low + 1 := drawBelow_lt (by omega) w
      omega
    · rintro ⟨hlow, hn⟩
      obtain ⟨w, hw⟩ : ∃ w, (drawBelow (high - low + 1) w).1 = n - low :=
        exists_drawBelow (by omega) (by omega)
      refine ⟨w, ?_⟩
      rw [hw]
      omega

end Words

namespace Backoff

variable {low high d : Duration} {attempt : Nat}

theorem drawMillis_lt (d : Duration) : drawMillis d < Words.modulus :=
  Nat.lt_of_le_of_lt (Nat.min_le_right ..) (by decide)

/-- The delays before an attempt are the whole milliseconds between the bounds, cut at a day. -/
theorem uniform_delay_iff (h : 0 < attempt) :
    (∃ words, ((uniform low high).delay attempt words).1 = d) ↔
      ∃ n, drawMillis low ≤ n ∧ n ≤ max (drawMillis high) (drawMillis low) ∧
        min (Duration.ofMillis n) longestDelay = d := by
  have hdraw := fun n => Words.exists_drawBetween_iff (n := n)
    (Nat.le_max_right (drawMillis high) (drawMillis low))
    (Nat.max_lt.mpr ⟨drawMillis_lt high, drawMillis_lt low⟩)
  unfold delay
  simp only [if_neg (Nat.pos_iff_ne_zero.mp h)]
  constructor
  · rintro ⟨words, rfl⟩
    obtain ⟨hlow, hhigh⟩ := (hdraw _).mp ⟨words, rfl⟩
    exact ⟨_, hlow, hhigh, rfl⟩
  · rintro ⟨n, hlow, hhigh, rfl⟩
    obtain ⟨words, rfl⟩ := (hdraw n).mpr ⟨hlow, hhigh⟩
    exact ⟨words, rfl⟩

/-- No number of milliseconds to draw is above the bound it was made from, and one that is below is
above a day. -/
theorem drawMillis_cases (d : Duration) :
    drawMillis d = d.millis ∨ longestDelay.millis < drawMillis d ∧ drawMillis d ≤ d.millis := by
  unfold drawMillis
  rcases Nat.le_total d.millis (UInt64.size - 1) with h | h
  · exact .inl (Nat.min_eq_left h)
  · rw [Nat.min_eq_right h]
    exact .inr ⟨by decide, h⟩

theorem nanos_longestDelay : longestDelay.nanos = longestDelay.millis * 1000000 := rfl

theorem ofSettings_uniform {s : BackoffSettings} (hs : ofSettings s = .uniform low high) :
    low = s.effectiveDelay ∧ high = s.maxDelay ∧ low < high := by
  unfold ofSettings at hs
  dsimp only at hs
  split at hs
  · split at hs <;> cases hs
  · split at hs
    · next hlt =>
      cases hs
      exact ⟨rfl, rfl, hlt⟩
    · cases hs

/-- **What bounds a uniform delay.** Up to a day, it is at most the upper bound and at least the
lower bound without its part of a millisecond. It is at least the lower bound itself, whatever the
words, only where that part is nothing or the lower bound is not below a day. -/
theorem uniform_delay_bounds {s : BackoffSettings} (hs : ofSettings s = .uniform low high)
    (h : 0 < attempt) :
    low = s.effectiveDelay ∧ high = s.maxDelay ∧
    (∀ words, min (Duration.ofMillis low.millis) longestDelay ≤
        ((uniform low high).delay attempt words).1 ∧
      ((uniform low high).delay attempt words).1 ≤ min high longestDelay) ∧
    ((∀ words, min low longestDelay ≤ ((uniform low high).delay attempt words).1) ↔
      low.nanos % 1000000 = 0 ∨ longestDelay ≤ low) := by
  obtain ⟨hlow, hhigh, hlt⟩ := ofSettings_uniform hs
  have hmillis : low.millis ≤ high.millis := Nat.div_le_div_right (Nat.le_of_lt hlt)
  have hbounds : ∀ words, min (Duration.ofMillis low.millis) longestDelay ≤
        ((uniform low high).delay attempt words).1 ∧
      ((uniform low high).delay attempt words).1 ≤ min high longestDelay := fun words => by
    obtain ⟨n, hn, hn', hd⟩ := (uniform_delay_iff h).mp ⟨words, rfl⟩
    rw [← hd]
    simp only [Duration.le_iff, Duration.nanos_min, Duration.nanos_ofMillis, nanos_longestDelay]
    have hround : high.millis * 1000000 ≤ high.nanos := Nat.div_mul_le_self ..
    have hl := drawMillis_cases low
    have hh := drawMillis_cases high
    -- how long a day is does not matter
    generalize longestDelay.millis = day at hl hh ⊢
    omega
  refine ⟨hlow, hhigh, hbounds, fun hall => ?_, fun hexact words => ?_⟩
  · -- the least delay is drawn for some words
    obtain ⟨words, hd⟩ := (uniform_delay_iff h).mpr
      ⟨drawMillis low, Nat.le_refl _, Nat.le_max_right (drawMillis high) _, rfl⟩
    have hleast := hall words
    rw [hd] at hleast
    simp only [Duration.le_iff, Duration.nanos_min, Duration.nanos_ofMillis, nanos_longestDelay]
      at hleast ⊢
    have := Nat.div_add_mod low.nanos 1000000
    have hdef : low.millis = low.nanos / 1000000 := rfl
    have hl := drawMillis_cases low
    generalize longestDelay.millis = day at hl hleast ⊢
    omega
  · refine Duration.le_trans ?_ (hbounds words).1
    simp only [Duration.le_iff, Duration.nanos_min, Duration.nanos_ofMillis, nanos_longestDelay]
      at hexact ⊢
    have hdef : low.millis = low.nanos / 1000000 := rfl
    generalize longestDelay.millis = day at hexact ⊢
    omega

/-- The bounds of these settings lie within one millisecond. -/
def close : BackoffSettings where
  delay := ⟨100500000⟩
  legacyDelay := Duration.ofMillis 1000
  maxDelay := ⟨100900000⟩
  multiplier := 0
  random := false

theorem ofSettings_close : ofSettings close = .uniform ⟨100500000⟩ ⟨100900000⟩ := by
  have hmultiplier : ¬ close.multiplier > 0 := by decide
  unfold ofSettings
  dsimp only
  rw [if_neg hmultiplier]
  rfl

theorem uniform_delay_bounds_close :
    (∀ words, Duration.ofMillis 100 ≤ ((ofSettings close).delay 1 words).1 ∧
      ((ofSettings close).delay 1 words).1 ≤ ⟨100900000⟩) ∧
    ¬ ∀ words, ⟨100500000⟩ ≤ ((ofSettings close).delay 1 words).1 := by
  obtain ⟨-, -, hbounds, hexact⟩ := uniform_delay_bounds ofSettings_close Nat.zero_lt_one
  rw [ofSettings_close]
  exact ⟨hbounds, mt hexact.mp (by decide)⟩

/-- No draw reaches the lower bound here, since both bounds round down to the same millisecond. -/
theorem close_delays_below : ofSettings close = .uniform close.effectiveDelay close.maxDelay ∧
    ¬ ∃ words, min close.effectiveDelay longestDelay ≤ ((ofSettings close).delay 1 words).1 := by
  refine ⟨ofSettings_close, ?_⟩
  rintro ⟨words, hreached⟩
  rw [ofSettings_close] at hreached
  generalize hd : ((uniform ⟨100500000⟩ ⟨100900000⟩).delay 1 words).1 = d at hreached
  obtain ⟨n, hn, hn', rfl⟩ := (uniform_delay_iff Nat.zero_lt_one).mp ⟨words, hd⟩
  obtain rfl : n = 100 := Nat.le_antisymm hn' hn
  exact absurd hreached (by decide)

end Backoff

end CallGuard
