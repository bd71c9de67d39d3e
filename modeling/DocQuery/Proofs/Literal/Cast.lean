import DocQuery.Operand
import DocQuery.Proofs.Binary64.ReadsBack
/-!
# The text casts of scalars

`Json.HasCast` says case by case which text a scalar is cast to, and of
doubles it says so by the integers that they are (`Binary64.IsInteger`),
not by how their magnitudes are kept. A cast computes exactly this
(`Json.hasCast_iff`), so every value but an array or object has one text.
-/

namespace DocQuery

/-! ## Doubles that are integers -/

namespace Binary64

/-- **The double is an integer.** Either zero is the integer zero. -/
structure IsInteger (x : Binary64) (i : Int) : Prop where
  /-- The magnitudes are the same. -/
  units : x.units = i.natAbs * unit
  /-- So are the signs, except for zero. -/
  sign : i ≠ 0 → (x.negative ↔ i < 0)

/-- The double without its fraction, as an integer. -/
def toInt (x : Binary64) : Int := if x.negative then -x.trunc else x.trunc

variable {x : Binary64} {i : Int}

theorem natAbs_toInt (x : Binary64) : x.toInt.natAbs = x.trunc := by
  rw [toInt]
  split <;> omega

theorem units_of_isIntegral (h : x.isIntegral) : x.units = x.trunc * unit := by
  have hmod : x.units % unit = 0 := beq_iff_eq.1 h
  have hsplit := Nat.div_add_mod x.units unit
  rw [hmod, Nat.add_zero, Nat.mul_comm] at hsplit
  exact hsplit.symm

/-- A double is an integer if it has no fraction, and then it is the
integer that is left without one. -/
theorem isInteger_iff : x.IsInteger i ↔ x.isIntegral ∧ i = x.toInt := by
  constructor
  · intro h
    have hmod : x.units % unit = 0 := by rw [h.units, Nat.mul_mod_left]
    have htrunc : x.trunc = i.natAbs := by
      rw [trunc, h.units, Nat.mul_div_cancel _ unit_pos]
    refine ⟨beq_iff_eq.2 hmod, ?_⟩
    rw [toInt, htrunc]
    by_cases hzero : i = 0
    · subst hzero
      split <;> rfl
    · have hsign := h.sign hzero
      split
      · have := hsign.1 ‹_›
        omega
      · have := mt hsign.2 ‹_›
        omega
  · rintro ⟨hintegral, rfl⟩
    refine ⟨by rw [natAbs_toInt, units_of_isIntegral hintegral], fun hne => ?_⟩
    rw [toInt] at hne ⊢
    by_cases hnegative : x.negative
    · rw [if_pos hnegative] at hne ⊢
      exact iff_of_true hnegative (by omega)
    · rw [if_neg hnegative] at hne ⊢
      exact iff_of_false hnegative (by omega)

/-- Zero of either sign is the integer zero. -/
theorem isInteger_zero (negative : Bool) : (zero negative).IsInteger 0 where
  units := by
    have hsignificand : (zero negative).significand = 0 := Nat.zero_sub _
    rw [units, hsignificand, Nat.zero_mul, Int.natAbs_zero, Nat.zero_mul]
  sign h := absurd rfl h

end Binary64

/-! ## Casts -/

namespace Number

variable {x : Binary64} {i : Int}

/-- A double that is an integer below the bound is cast as that integer. -/
theorem cast_of_isInteger (h : x.IsInteger i) (hlt : i.natAbs < integerCastBound) :
    (float x).cast = Text.ofInt i := by
  obtain ⟨hintegral, rfl⟩ := Binary64.isInteger_iff.1 h
  rw [Binary64.natAbs_toInt] at hlt
  rw [cast, if_pos (by rw [hintegral, decide_eq_true hlt]; rfl), Binary64.toInt]

/-- Any other double keeps its spelling. -/
theorem cast_of_not_isInteger (h : ∀ i, x.IsInteger i → integerCastBound ≤ i.natAbs) :
    (float x).cast = x.spelling := by
  by_cases hcast : x.isIntegral && x.trunc < integerCastBound
  · obtain ⟨hintegral, hlt⟩ := Bool.and_eq_true_iff.1 hcast
    have hle := h x.toInt (Binary64.isInteger_iff.2 ⟨hintegral, rfl⟩)
    rw [Binary64.natAbs_toInt] at hle
    exact absurd (of_decide_eq_true hlt) (Nat.not_lt.2 hle)
  · rw [cast, if_neg hcast]

end Number

namespace Json

/-- **The text that a scalar is cast to.** Arrays and objects are cast to
none. -/
inductive HasCast : Json → Text → Prop
  /-- A text is its own cast. -/
  | str (s : Text) : HasCast (str s) s
  /-- An integer is cast to its digits. -/
  | int (i : Int) (inRange : Number.InRange i) : HasCast (num (.int i inRange)) (Text.ofInt i)
  /-- So is a double that is an integer of a magnitude below the bound. -/
  | whole {x : Binary64} {i : Int} (isInteger : x.IsInteger i) (lt_bound : i.natAbs < 10 ^ 15) :
      HasCast (num (.float x)) (Text.ofInt i)
  /-- Any other double is cast to its JSON spelling. -/
  | double {x : Binary64} (bound_le : ∀ i, x.IsInteger i → 10 ^ 15 ≤ i.natAbs) :
      HasCast (num (.float x)) x.spelling
  /-- The truth value that counts as one. -/
  | yes : HasCast (bool true) ['1']
  /-- The other counts as nothing. -/
  | no : HasCast (bool false) []
  /-- And so does the absence of a value. -/
  | null : HasCast null []

/-- **The cast of a value is the one text that it has.** -/
theorem hasCast_iff {v : Json} {t : Text} : v.HasCast t ↔ v.cast? = some t := by
  constructor
  · intro h
    cases h with
    | whole hinteger hlt => exact congrArg some (Number.cast_of_isInteger hinteger hlt)
    | double hle => exact congrArg some (Number.cast_of_not_isInteger hle)
    | _ => rfl
  · intro h
    cases v with
    | str s =>
      rw [← Option.some.inj h]
      exact .str s
    | bool b =>
      cases b
      · cases h
        exact .no
      · cases h
        exact .yes
    | null =>
      cases h
      exact .null
    | num n =>
      have ht : n.cast = t := Option.some.inj h
      subst ht
      cases n with
      | int i hrange => exact .int i hrange
      | float x =>
        by_cases hwhole : ∃ i, x.IsInteger i ∧ i.natAbs < Number.integerCastBound
        · obtain ⟨i, hinteger, hlt⟩ := hwhole
          rw [Number.cast_of_isInteger hinteger hlt]
          exact .whole hinteger hlt
        · have hle : ∀ i, x.IsInteger i → Number.integerCastBound ≤ i.natAbs :=
            fun i hi => Nat.le_of_not_lt fun hlt => hwhole ⟨i, hi, hlt⟩
          rw [Number.cast_of_not_isInteger hle]
          exact .double hle
    | arr items => cases h
    | obj members => cases h

end Json

end DocQuery
