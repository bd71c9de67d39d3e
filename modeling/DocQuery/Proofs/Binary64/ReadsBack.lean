import DocQuery.Binary64
import Mathlib.Algebra.Group.Nat.Defs
/-!
# Shortest decimals read back

Rounding depends on the value of a quotient alone (`nearestRank_mul`), and
a magnitude that a double has is rounded to that double
(`nearestRank_units`). Every hit on the way to the shortest decimal is
tested by reading it, so what is left to show is that the way cannot end
without one: on its last grid every double is a whole number of steps
(`readsBack_unitGrid`). So the shortest decimal always reads as the double
it was made from (`ofDecimal?_shortest`).
-/

namespace DocQuery

/-! ## Rounding a quotient -/

variable {num den k : Nat}

/-- Rounding depends on the quotient alone. -/
theorem roundHalfEven_mul (hk : 0 < k) :
    roundHalfEven (num * k) (den * k) = roundHalfEven num den := by
  have hassoc : 2 * (num % den * k) = 2 * (num % den) * k := (Nat.mul_assoc 2 _ k).symm
  have hbelow : 2 * (num % den) * k < den * k ↔ 2 * (num % den) < den := Nat.mul_lt_mul_right hk
  have habove : den * k < 2 * (num % den) * k ↔ den < 2 * (num % den) := Nat.mul_lt_mul_right hk
  unfold roundHalfEven
  rw [Nat.mul_div_mul_right _ _ hk, Nat.mul_mod_mul_right]
  simp only [hassoc, hbelow, habove]

/-- A whole number is rounded to itself. -/
theorem roundHalfEven_self (q : Nat) (hden : 0 < den) : roundHalfEven (q * den) den = q := by
  unfold roundHalfEven
  rw [Nat.mul_div_cancel q hden, Nat.mul_mod_left]
  exact if_pos hden

namespace Binary64

/-! ## Ranks -/

theorem twoTo_pos (k : Nat) : 0 < twoTo k := Nat.two_pow_pos k

theorem unit_pos : 0 < unit := twoTo_pos 1074

theorem nearestRank_eq (num den : Nat) : nearestRank num den =
    spacing (num * unit) den * twoTo 52 +
      roundHalfEven (num * unit) (den * twoTo (spacing (num * unit) den)) := by
  rw [nearestRank]

/-- The nearest rank depends on the quotient alone. -/
theorem nearestRank_mul (hk : 0 < k) : nearestRank (num * k) (den * k) = nearestRank num den := by
  have hnum : num * k * unit = num * unit * k := Nat.mul_right_comm num k unit
  have hspacing : spacing (num * unit * k) (den * k) = spacing (num * unit) den := by
    rw [spacing, spacing, Nat.mul_div_mul_right _ _ hk]
  rw [nearestRank_eq, nearestRank_eq, hnum, hspacing, Nat.mul_right_comm den k,
    roundHalfEven_mul hk]

/-- And so does the nearest double. -/
theorem ofQuotient?_mul (negative : Bool) (hk : 0 < k) :
    ofQuotient? negative (num * k) (den * k) = ofQuotient? negative num den := by
  unfold ofQuotient?
  simp only [nearestRank_mul hk]

/-- **The fields of a rank.** A rank below two binades is its own
significand; any other has a significand of 53 bits and a scale. -/
theorem rank_cases (x : Binary64) :
    (x.scale = 0 ∧ x.significand = x.rank ∧ x.significand < 2 ^ 53) ∨
    (2 ^ 52 ≤ x.significand ∧ x.significand < 2 ^ 53 ∧
      x.rank = x.scale * 2 ^ 52 + x.significand) := by
  have hscale : x.scale = x.rank / 2 ^ 52 - 1 := rfl
  have hsignificand : x.significand = x.rank - x.scale * 2 ^ 52 := rfl
  rcases Nat.lt_or_ge x.rank (2 ^ 53) with hlt | hge
  · refine .inl ⟨by omega, by omega, by omega⟩
  · refine .inr ⟨by omega, by omega, by omega⟩

/-- The spacing at a magnitude is its scale. -/
theorem spacing_units (x : Binary64) : x.units.log2 - 52 = x.scale := by
  have hunits : x.units = x.significand * 2 ^ x.scale := rfl
  rcases x.rank_cases with ⟨hscale, -, hlt⟩ | ⟨hge, hlt, -⟩
  · rw [hunits, hscale, Nat.pow_zero, Nat.mul_one]
    rcases Nat.eq_zero_or_pos x.significand with hzero | hpos
    · rw [hzero, Nat.log2_zero]
    · have := (Nat.log2_lt (Nat.ne_of_gt hpos)).2 hlt
      omega
  · have hne : x.units ≠ 0 := by
      rw [hunits]
      exact Nat.mul_ne_zero (by omega) (Nat.ne_of_gt (Nat.two_pow_pos _))
    have hlog : x.units.log2 = 52 + x.scale := by
      rw [Nat.log2_eq_iff hne, hunits, Nat.pow_add, Nat.add_right_comm, Nat.pow_add]
      exact ⟨Nat.mul_le_mul_right _ hge, Nat.mul_lt_mul_of_pos_right hlt (Nat.two_pow_pos _)⟩
    omega

/-- **A magnitude that a double has is rounded to its rank.** -/
theorem nearestRank_units (x : Binary64) : nearestRank x.units unit = x.rank := by
  have hspacing : spacing (x.units * unit) unit = x.scale := by
    rw [spacing, Nat.mul_div_cancel _ unit_pos, spacing_units]
  have hnum : x.units * unit = x.significand * (unit * twoTo x.scale) := by
    rw [units, Nat.mul_assoc, Nat.mul_comm (twoTo x.scale)]
  have hstep : 0 < unit * twoTo x.scale := Nat.mul_pos unit_pos (twoTo_pos _)
  have hround : roundHalfEven (x.units * unit) (unit * twoTo x.scale) = x.significand := by
    rw [hnum, roundHalfEven_self _ hstep]
  rw [nearestRank_eq, hspacing, hround]
  rcases x.rank_cases with ⟨hscale, hrank, -⟩ | ⟨-, -, hrank⟩
  · rw [hscale, Nat.zero_mul, Nat.zero_add, hrank]
  · exact hrank.symm

/-- So a double is the nearest to its own magnitude, however that is
expanded. -/
theorem ofQuotient?_units (x : Binary64) (hk : 0 < k) :
    ofQuotient? x.negative (x.units * k) (unit * k) = some x := by
  rw [ofQuotient?_mul _ hk, ofQuotient?]
  simp only [nearestRank_units, x.rank_lt, dite_true]

/-! ## Decimals -/

theorem readsBack_iff {x : Binary64} {digits : Nat} {exponent : Int} :
    x.readsBack digits exponent ↔ ofDecimal? x.negative digits exponent = some x :=
  beq_iff_eq

/-- The nearest integer is one of the two neighbours. -/
theorem roundHalfEven_cases (num den : Nat) :
    roundHalfEven num den = num / den ∨ roundHalfEven num den = num / den + 1 := by
  have hparity : num / den % 2 < 2 := Nat.mod_lt _ (by decide)
  unfold roundHalfEven
  dsimp only
  split
  · exact .inl rfl
  split
  · exact .inr rfl
  · omega

/-- **A hit on a grid reads back**, whichever neighbour it is. -/
theorem readsBack_of_gridPoint? {x : Binary64} {g : Int} {d : Nat} (h : x.gridPoint? g = some d) :
    x.readsBack d g := by
  unfold gridPoint? at h
  dsimp only at h
  split at h
  · rename_i hlow hhigh
    cases h
    rcases roundHalfEven_cases (x.onGrid g).1 (x.onGrid g).2 with hround | hround
    · rw [hround, hlow]
    · rw [hround, hhigh]
  · rename_i hlow _
    cases h
    exact hlow
  · rename_i _ hhigh
    cases h
    exact hhigh
  · cases h

theorem tenTo_eq (k : Nat) : tenTo k = 5 ^ k * twoTo k := Nat.mul_pow 5 2 k

/-- A power of five has two bits at least for each factor. -/
theorem le_log2_mul_pow {u : Nat} (hu : u ≠ 0) (k : Nat) : 2 * k ≤ (u * 5 ^ k).log2 := by
  have hfive : 2 ^ (2 * k) ≤ 5 ^ k := by
    rw [Nat.pow_mul]
    exact Nat.pow_le_pow_left (by decide) k
  have hpos : 0 < u * 5 ^ k := Nat.mul_pos (Nat.pos_of_ne_zero hu) (Nat.pow_pos (by decide))
  rw [Nat.le_log2 (Nat.ne_of_gt hpos)]
  exact Nat.le_trans hfive (Nat.le_mul_of_pos_left _ (Nat.pos_of_ne_zero hu))

/-- The zeros are the doubles of the least rank. -/
theorem eq_zero_of_rank {x : Binary64} (h : x.rank = 0) : x = zero x.negative := by
  cases x
  cases h
  rfl

/-- Only the zeros have no units. -/
theorem eq_zero_of_units {x : Binary64} (h : x.units = 0) : x = zero x.negative := by
  have hsignificand : x.significand = 0 :=
    (Nat.mul_eq_zero.1 h).resolve_right (Nat.ne_of_gt (twoTo_pos _))
  rcases x.rank_cases with ⟨-, hrank, -⟩ | ⟨hge, -, -⟩
  · exact eq_zero_of_rank (hrank ▸ hsignificand)
  · omega

/-- **On the grid of the unit a double reads back**: there it is a whole
number of steps, and rounding is exact. -/
theorem readsBack_unitGrid (x : Binary64) {k : Nat} (hunit : unit = twoTo k) (hpos : 0 < k)
    (hlt : k < 1076) : x.readsBack ((x.onGrid (-k)).1 / (x.onGrid (-k)).2) (-k) := by
  have hneg : ¬ (0 : Int) ≤ -k := by omega
  have htoNat : (-(-k : Int)).toNat = k := by omega
  have hten : tenTo k = 5 ^ k * unit := by rw [tenTo_eq, hunit]
  have hfive : 0 < 5 ^ k := Nat.pow_pos (by decide)
  have hdigits : (x.onGrid (-k)).1 / (x.onGrid (-k)).2 = x.units * 5 ^ k := by
    rw [onGrid, if_neg hneg, htoNat, hten, ← Nat.mul_assoc, Nat.mul_div_cancel _ unit_pos]
  rw [hdigits, readsBack_iff, ofDecimal?]
  by_cases hzero : x.units = 0
  · rw [hzero, Nat.zero_mul, if_pos rfl, ← eq_zero_of_units hzero]
  · have hlog : 2 * k ≤ (x.units * 5 ^ k).log2 := le_log2_mul_pow hzero k
    have hne : x.units * 5 ^ k ≠ 0 := Nat.mul_ne_zero hzero (Nat.ne_of_gt hfive)
    rw [if_neg hne, if_neg (by omega), if_neg (by omega), if_neg hneg, htoNat, hten,
      Nat.mul_comm (5 ^ k), ofQuotient?_units x hfive]

/-- The walk over the grids ends in a decimal that reads back, if its last
grid is the finest. -/
theorem readsBack_firstGridPoint (x : Binary64) (grids : Nat) {g : Int} (h : g - grids = -1074) :
    x.readsBack (firstGridPoint x grids g).digits (firstGridPoint x grids g).exponent := by
  induction grids generalizing g with
  | zero =>
    obtain rfl : g = -1074 := by simpa using h
    exact x.readsBack_unitGrid (k := 1074) rfl (by decide) (by decide)
  | succ grids ih =>
    rw [firstGridPoint]
    split
    · rename_i d hhit
      exact readsBack_of_gridPoint? hhit
    · exact ih (by omega)

/-- **The shortest decimal of a double reads as the double.** -/
theorem ofDecimal?_shortest (x : Binary64) :
    ofDecimal? x.negative x.shortest.digits x.shortest.exponent = some x :=
  readsBack_iff.1 (x.readsBack_firstGridPoint _ (by omega))

end Binary64

end DocQuery
