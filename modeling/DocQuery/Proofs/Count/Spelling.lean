import DocQuery.Proofs.Collection.Ids
import DocQuery.Proofs.Count.Coercion
import DocQuery.Proofs.Json.Closed
import DocQuery.Proofs.Numeral.Spelling
/-!
# Numbers and their texts count alike

A number reaches a row count in two ways, as itself and as text, and the
two meet: the text of a number between white space has the count of the
number, or is refused with it (`compile_compact`). The text of an integer
is a word or lies below zero in floating point too, and the text of a
double is never taken as a word and reads as the double it was written
for.
-/

namespace DocQuery

open Numeral

namespace Binary64

/-- A whole number other than zero is not rounded to zero. -/
theorem nearestRank_one_pos {k : Nat} (h : 0 < k) : 0 < nearestRank k 1 := by
  have hunits : 0 < k * unit := Nat.mul_pos h unit_pos
  rw [nearestRank_eq, Nat.one_mul]
  -- at the least spacing the number is exact, and above it the rank is large
  rcases Nat.eq_zero_or_pos (spacing (k * unit) 1) with hspacing | hspacing
  · have hround := roundHalfEven_self (k * unit) Nat.one_pos
    rw [Nat.mul_one] at hround
    rw [hspacing, Nat.zero_mul, Nat.zero_add]
    change 0 < roundHalfEven (k * unit) 1
    rwa [hround]
  · exact Nat.add_pos_left (Nat.mul_pos hspacing (twoTo_pos 52)) _

end Binary64

namespace Numeral

/-- **An integer below zero reads as a double below zero**, if as a double
at all. -/
theorem nearest?_ofInt {i : Int} {x : Binary64} (hneg : i < 0) (h : (ofInt i).nearest? = some x) :
    x.negative ∧ x.units ≠ 0 := by
  have hdigits : Text.toNat ((ofInt i).whole ++ (ofInt i).fraction) = i.natAbs := by
    change Text.toNat (Text.ofNat i.natAbs ++ []) = i.natAbs
    rw [List.append_nil, Text.toNat_ofNat]
  have hpos : 0 < i.natAbs := by omega
  have hexponent : (ofInt i).exponent.getD 0 - (ofInt i).fraction.length = 0 := rfl
  rw [nearest?, hdigits, hexponent, Binary64.ofDecimal?, if_neg (Nat.ne_of_gt hpos),
    if_neg (by decide), if_neg (by omega), if_pos (by decide), Binary64.ofQuotient?] at h
  obtain ⟨hrank, heq⟩ := Option.dite_none_right_eq_some.1 h
  cases Option.some.inj heq
  refine ⟨decide_eq_true hneg, fun hunits => ?_⟩
  have hzero := congrArg Binary64.rank (Binary64.eq_zero_of_units hunits)
  have hone : i.natAbs * tenTo (Int.toNat 0) = i.natAbs := Nat.mul_one _
  have hrankPos := Binary64.nearestRank_one_pos hpos
  change Binary64.nearestRank (i.natAbs * tenTo (Int.toNat 0)) 1 = 0 at hzero
  rw [hone] at hzero
  omega

/-- A numeral that stands for a double reads as that double. -/
theorem nearest?_of_rounded? {m : Numeral} {x : Binary64} (h : m.rounded? = some (.float x)) :
    m.nearest? = some x := by
  have hfloat : m.nearest?.map Number.float = some (.float x) := by
    rw [rounded?] at h
    split at h
    · split at h
      · cases h
      · exact h
    · exact h
  obtain ⟨y, hnearest, hy⟩ := Option.map_eq_some_iff.1 hfloat
  cases hy
  exact hnearest

end Numeral

namespace Count

variable {front back : Text}

/-- The characters of a number are no white space. -/
theorem isSpace_of_isNumeral {c : Char} (h : isNumeral c) : Text.isSpace c = false := by
  simp only [isNumeral, Bool.or_eq_true, decide_eq_true_eq] at h
  rcases h with (((hdigit | rfl) | rfl) | rfl) | rfl
  · exact Text.isSpace_of_isDigit hdigit
  all_goals rfl

/-- **Trimming leaves the text of a number.** -/
theorem trimsTo_spelling (n : Number) (hfront : front.isBlank) (hback : back.isBlank) :
    Text.TrimsTo (front ++ n.spelling ++ back) n.spelling where
  split := ⟨front, back, hfront, hback, rfl⟩
  begins := by
    rw [Text.BeginsSolid, Option.all_eq_true]
    intro c hc
    simp [isSpace_of_isNumeral (Number.isNumeral_of_mem_spelling (List.mem_of_mem_head? hc))]
  ends := by
    rw [Text.EndsSolid, Option.all_eq_true]
    intro c hc
    simp [isSpace_of_isNumeral (Number.isNumeral_of_mem_spelling (List.mem_of_mem_getLast? hc))]

/-- The text of an integer below zero is no word. -/
theorem not_spelledWord_of_neg {i : Int} {w : UInt64} (hneg : i < 0) :
    ¬ SpelledWord w (Text.ofInt i) := by
  intro hword
  cases i with
  | ofNat k => exact absurd hneg (Int.not_lt.2 (Int.natCast_nonneg k))
  | negSucc k =>
    have hminus : '-' ∈ Text.ofInt (.negSucc k) := List.mem_cons_self
    exact absurd (hword.isDigit_of_mem hminus) (by decide)

/-- **Neither is that of a double**, which holds a point or an exponent. -/
theorem not_spelledWord_of_float {x : Binary64} {w : UInt64} : ¬ SpelledWord w x.spelling := by
  intro hword
  rcases x.mark_mem_spelling with hmark | hmark
  · exact absurd (hword.isDigit_of_mem hmark) (by decide)
  · exact absurd (hword.isDigit_of_mem hmark) (by decide)

/-- The text of an integer below zero counts nothing. -/
theorem exists_readsAs_of_neg {i : Int} (hneg : i < 0) :
    ∃ r, ReadsAs (Text.ofInt i) r ∧ Counts r none := by
  have hspells : Spells (ofInt i) (Text.ofInt i) := by
    have hspelled := spells_of_spelled (spelled_text (isReadable_ofInt i))
    rwa [text_ofInt] at hspelled
  cases hnearest : (ofInt i).nearest? with
  | none => exact ⟨_, .beyond hspells hnearest, .infinite _⟩
  | some x =>
    obtain ⟨hnegative, hunits⟩ := nearest?_ofInt hneg hnearest
    exact ⟨_, .finite hspells hnearest, .below hnegative hunits⟩

/-- **The text of a double reads as the double.** -/
theorem readsAs_spelling (x : Binary64) : ReadsAs x.spelling (.finite x) := by
  obtain ⟨m, hreadable, htext, hrounded⟩ := (Number.float x).exists_numeral
  have hspells := spells_of_spelled (spelled_text hreadable)
  rw [htext] at hspells
  exact .finite hspells (nearest?_of_rounded? hrounded)

/-- **A number and its text between white space count the same**: the
relation gives both one answer. -/
theorem exists_coerces_both (n : Number) (hfront : front.isBlank) (hback : back.isBlank) :
    ∃ c, Coerces (.str (front ++ n.spelling ++ back)) c ∧ Coerces (.num n) c := by
  have htrim := trimsTo_spelling n hfront hback
  cases n with
  | float x =>
    obtain ⟨c, hcounts⟩ := exists_counts (.finite x)
    exact ⟨c, .floatText htrim (fun _ => not_spelledWord_of_float) (readsAs_spelling x) hcounts,
      .float hcounts⟩
  | int i hrange =>
    rcases Int.lt_or_le i 0 with hneg | hpos
    · obtain ⟨r, hreads, hcounts⟩ := exists_readsAs_of_neg hneg
      exact ⟨none, .floatText htrim (fun _ => not_spelledWord_of_neg hneg) hreads hcounts,
        .negative hrange hneg⟩
    · obtain ⟨k, rfl⟩ := Int.eq_ofNat_of_zero_le hpos
      have hlt : k < UInt64.size := Int.ofNat_lt.1 hrange.2
      have hvalue : (UInt64.ofNat k).toNat = k := UInt64.toNat_ofNat_of_lt' hlt
      have hword : SpelledWord (UInt64.ofNat k) (Text.ofNat k) :=
        .digits ⟨Text.all_isDigit_ofNat k, Text.ofNat_ne_nil k⟩
          ((Text.toNat_ofNat k).trans hvalue.symm)
      exact ⟨some (UInt64.ofNat k), .wordText htrim hword,
        .word hrange (congrArg Int.ofNat hvalue.symm)⟩

/-- **A number and its compact text between white space are answered
alike** by every operation that takes a row count: with one count, or with
one refusal. -/
theorem compile_compact (operation : Operation) (n : Number) (hfront : front.isBlank)
    (hback : back.isBlank) :
    compile operation (.str (front ++ (Json.num n).compact ++ back)) =
      compile operation (.num n) := by
  have hcompact : (Json.num n).compact = n.spelling := rfl
  obtain ⟨c, htext, hnumber⟩ := exists_coerces_both n hfront hback
  rw [hcompact, compile_eq, compile_eq, ofJson?_of_coerces htext, ofJson?_of_coerces hnumber]

/-- The double `2 ^ 64`, the least whose count is cut. -/
def wordBound : Binary64 := ⟨false, 1087 * twoTo 52, by decide⟩

/-- Its text between a no-break space, a tab and a line end. -/
theorem compile_compact_wordBound :
    Text.isBlank ['\u00a0', '\t'] ∧ Text.isBlank ['\n'] ∧
    compile .limit (.str (['\u00a0', '\t'] ++ (Json.num (.float wordBound)).compact ++ ['\n'])) =
      compile .limit (.num (.float wordBound)) ∧
    compile .limit (.num (.float wordBound)) = .ok 18446744073709551615 := by
  have hfront : Text.isBlank ['\u00a0', '\t'] := by decide
  have hback : Text.isBlank ['\n'] := by decide
  have htrunc : wordBound.trunc = 2 ^ 64 := by decide +kernel
  have hvalue : (18446744073709551615 : UInt64).toNat = min wordBound.trunc (2 ^ 64 - 1) :=
    htrunc.symm ▸ rfl
  have hcount := ofJson?_of_coerces (.float (.count (.inl rfl) hvalue))
  refine ⟨hfront, hback, compile_compact .limit (.float wordBound) hfront hback, ?_⟩
  exact (compile_eq .limit _).trans (congrArg (verdict .limit) hcount)

end Count

end DocQuery
