import DocQuery.Proofs.Binary64.ReadsBack
import DocQuery.Proofs.Count.Grammar
import DocQuery.Proofs.Text.Trim
/-!
# Which values are row counts

`Coerces` says what the count of a value is without a program: what the
two grammars of texts have, what a double is cut to, and what is refused.
The count that is computed is the one of the relation
(`ofJson?_eq_iff`), for the row limit and the offset alike
(`compile_eq_verdict_iff`).
-/

namespace DocQuery

namespace Count

open Numeral

variable {t s : Text} {x : Binary64} {n : Numeral} {c : Option UInt64}

/-! ## Readings -/

/-- What a text can read as in floating point. -/
inductive Reading
  /-- A finite double. -/
  | finite (x : Binary64)
  /-- An infinity, spelled as one or beyond the greatest double. -/
  | infinite (negative : Bool)
  /-- No number. -/
  | nan

/-- **What a text reads as in floating point**, if anything: the double
nearest to the numeral that it spells, or one of the words in letters of
either case. -/
inductive ReadsAs : Text → Reading → Prop
  /-- A numeral within range. -/
  | finite {n : Numeral} {t : Text} {x : Binary64} (spells : Spells n t)
      (nearest : n.nearest? = some x) : ReadsAs t (.finite x)
  /-- A numeral beyond the greatest double. -/
  | beyond {n : Numeral} {t : Text} (spells : Spells n t) (nearest : n.nearest? = none) :
      ReadsAs t (.infinite n.negative)
  /-- The word for infinity, long or short. -/
  | infinity {negative : Bool} {sg word : Text} (isSign : SpelledSign negative sg)
      (isWord : word.map Char.toLower = "inf".toList ∨
        word.map Char.toLower = "infinity".toList) : ReadsAs (sg ++ word) (.infinite negative)
  /-- The word for no number. -/
  | nan {negative : Bool} {sg word : Text} (isSign : SpelledSign negative sg)
      (isWord : word.map Char.toLower = "nan".toList) : ReadsAs (sg ++ word) .nan

/-- **What a reading counts.** Only what is finite and not below zero
counts, without its fraction and as far as a word of 64 bits reaches; minus
zero is not below zero. -/
inductive Counts : Reading → Option UInt64 → Prop
  /-- A finite double that is not below zero. -/
  | count {x : Binary64} {w : UInt64} (notBelow : x.negative = false ∨ x.units = 0)
      (value : w.toNat = min x.trunc (2 ^ 64 - 1)) : Counts (.finite x) (some w)
  /-- A double below zero. -/
  | below {x : Binary64} (negative : x.negative) (nonzero : x.units ≠ 0) :
      Counts (.finite x) none
  /-- An infinity. -/
  | infinite (negative : Bool) : Counts (.infinite negative) none
  /-- No number. -/
  | nan : Counts .nan none

/-! ## Counts -/

/-- **The count of a value**, or none where it is refused. -/
inductive Coerces : Json → Option UInt64 → Prop
  /-- An integer that is a word counts itself. -/
  | word {w : UInt64} {i : Int} (inRange : Number.InRange i) (value : i = w.toNat) :
      Coerces (.num (.int i inRange)) (some w)
  /-- An integer below zero does not count. -/
  | negative {i : Int} (inRange : Number.InRange i) (below : i < 0) :
      Coerces (.num (.int i inRange)) none
  /-- A double counts what it counts as a reading. -/
  | float {x : Binary64} {c : Option UInt64} (counts : Counts (.finite x) c) :
      Coerces (.num (.float x)) c
  /-- A text that is a word between white space counts exactly that. -/
  | wordText {t s : Text} {w : UInt64} (trims : Text.TrimsTo t s) (spelled : SpelledWord w s) :
      Coerces (.str t) (some w)
  /-- Any other text counts what it reads as. -/
  | floatText {t s : Text} {r : Reading} {c : Option UInt64} (trims : Text.TrimsTo t s)
      (noWord : ∀ w, ¬ SpelledWord w s) (reads : ReadsAs s r) (counts : Counts r c) :
      Coerces (.str t) c
  /-- A text that does not read as anything does not count. -/
  | noText {t s : Text} (trims : Text.TrimsTo t s) (noWord : ∀ w, ¬ SpelledWord w s)
      (noReading : ∀ r, ¬ ReadsAs s r) : Coerces (.str t) none
  /-- And nothing else counts. -/
  | other {v : Json} (noNumber : ∀ n, v ≠ .num n) (noText : ∀ t, v ≠ .str t) : Coerces v none

/-- The answer of an operation to a count or to none. -/
def verdict (operation : Operation) : Option UInt64 → Except Error UInt64
  | some w => .ok w
  | none => .error (.argument operation .parameter)

/-! ## Doubles -/

/-- A double is a zero if it has no units. -/
theorem isZero_iff_units : x.isZero ↔ x.units = 0 := by
  constructor
  · intro h
    have hzero : x = .zero x.negative := Binary64.eq_zero_of_rank (beq_iff_eq.1 h)
    have hsignificand : (Binary64.zero x.negative).significand = 0 := Nat.zero_sub _
    rw [hzero, Binary64.units, hsignificand, Nat.zero_mul]
  · intro h
    rw [Binary64.eq_zero_of_units h]
    rfl

/-- The greatest word is as far as a count reaches. -/
theorem toNat_ofNat_min (k : Nat) : (UInt64.ofNat (min k greatest)).toNat = min k (2 ^ 64 - 1) := by
  have hlt : min k greatest < UInt64.size := by
    have hle : min k greatest ≤ greatest := Nat.min_le_right k greatest
    exact Nat.lt_of_le_of_lt hle (by decide)
  exact UInt64.toNat_ofNat_of_lt' hlt

/-- **A double has the count of its reading.** -/
theorem counts_iff : Counts (.finite x) c ↔ ofDouble? x = c := by
  have hnegative : (x.negative && !x.isZero) ↔ x.negative ∧ x.units ≠ 0 := by
    rw [Bool.and_eq_true, Bool.not_eq_true', ← Bool.not_eq_true, isZero_iff_units]
  constructor
  · intro h
    rw [ofDouble?]
    cases h with
    | count hnot hvalue =>
      have hcounts : ¬ (x.negative && !x.isZero) := by
        rw [hnegative]
        rintro ⟨hneg, hne⟩
        exact hnot.elim (fun hpos => absurd hneg (by simp [hpos])) hne
      rw [if_neg hcounts]
      exact congrArg some (UInt64.toNat_inj.1 ((toNat_ofNat_min x.trunc).trans hvalue.symm))
    | below hneg hne => exact if_pos (hnegative.2 ⟨hneg, hne⟩)
  · rintro rfl
    rw [ofDouble?]
    split
    · rename_i hbelow
      exact .below (hnegative.1 hbelow).1 (hnegative.1 hbelow).2
    · rename_i hbelow
      refine .count ?_ (toNat_ofNat_min x.trunc)
      rw [hnegative, Decidable.not_and_iff_or_not, Bool.not_eq_true, Decidable.not_not] at hbelow
      exact hbelow

/-! ## Texts -/

/-- What becomes a letter in lower case begins no number. -/
theorem no_number_of_toLower {d : Char} {t : Text} (h : d.toLower.isAlpha) :
    ((d :: t).head?.all fun c => !c.isDigit && c ≠ '.') ∧
      ((d :: t).head?.all fun c => c ≠ '-' && c ≠ '+') := by
  have hdigit : d.isDigit = false := by
    rw [← Bool.not_eq_true]
    intro hdigit
    -- a digit is the same in lower case
    obtain ⟨hlow, hhigh⟩ := Text.toNat_of_isDigit hdigit
    have hdigits : ∀ k < 10, (Char.ofNat (48 + k)).toLower.isAlpha = false := by decide
    have hd : Char.ofNat (48 + (d.toNat - 48)) = d := by
      rw [Nat.add_sub_cancel' hlow, Char.ofNat_toNat]
    have hnone := hdigits (d.toNat - 48) (by omega)
    rw [hd, h] at hnone
    cases hnone
  have hpoint : d ≠ '.' := by
    rintro rfl
    exact absurd h (by decide)
  have hminus : d ≠ '-' := by
    rintro rfl
    exact absurd h (by decide)
  have hplus : d ≠ '+' := by
    rintro rfl
    exact absurd h (by decide)
  simp [hdigit, hpoint, hminus, hplus]

/-- **A word in letters is no numeral.** -/
theorem numeral?_word {negative : Bool} {sg word w : Text} {d : Char}
    (hsign : SpelledSign negative sg) (hword : word.map Char.toLower = d :: w)
    (hletter : d.isAlpha) : numeral? (sg ++ word) = none := by
  cases word with
  | nil => cases hword
  | cons a word =>
    obtain rfl : a.toLower = d := (List.cons_eq_cons.1 hword).1
    obtain ⟨hnumber, hnosign⟩ := no_number_of_toLower (t := word) hletter
    have hspan : spanDigits ([] ++ a :: word) = ([], a :: word) :=
      spanDigits_append rfl (no_digit_of_no_point hnumber)
    rw [List.nil_append] at hspan
    rw [numeral?, sign_append hsign hnosign]
    simp only [hspan, fraction_eq hnumber]
    rfl

/-- A text that does not read as anything is no numeral. -/
theorem numeral?_eq_none (h : ∀ r, ¬ ReadsAs s r) : numeral? s = none := by
  cases hnumeral : numeral? s with
  | none => rfl
  | some n =>
    have hspells := spells_of_numeral? hnumeral
    cases hnearest : n.nearest? with
    | none => exact absurd (.beyond hspells hnearest) (h _)
    | some x => exact absurd (.finite hspells hnearest) (h _)

/-- **A text counts what it reads as.** -/
theorem count_of_readsAs {r : Reading} (hreads : ReadsAs s r) (hcounts : Counts r c) :
    (numeral? s).bind (fun n => n.nearest?.bind ofDouble?) = c := by
  cases hreads with
  | finite hspells hnearest =>
    rw [numeral?_of_spells hspells, Option.bind_some, hnearest, Option.bind_some]
    exact counts_iff.1 hcounts
  | beyond hspells hnearest =>
    cases hcounts
    rw [numeral?_of_spells hspells, Option.bind_some, hnearest, Option.bind_none]
  | infinity hsign hword =>
    cases hcounts
    rcases hword with hword | hword
    · rw [numeral?_word hsign hword rfl, Option.bind_none]
    · rw [numeral?_word hsign hword rfl, Option.bind_none]
  | nan hsign hword =>
    cases hcounts
    rw [numeral?_word hsign hword rfl, Option.bind_none]

/-- A word between white space is the count of the text. -/
theorem ofText?_word {w : UInt64} (htrim : Text.TrimsTo t s) (hword : SpelledWord w s) :
    ofText? t = some w := by
  obtain rfl := Text.trimsTo_iff.1 htrim
  rw [ofText?, word?_eq_some_iff.2 hword]

/-- Any other text is read in floating point. -/
theorem ofText?_eq (htrim : Text.TrimsTo t s) (hno : ∀ w, ¬ SpelledWord w s) :
    ofText? t = (numeral? s).bind fun n => n.nearest?.bind ofDouble? := by
  obtain rfl := Text.trimsTo_iff.1 htrim
  rw [ofText?, word?_eq_none hno]
  rfl

/-! ## Values -/

/-- Everything that a text can read as counts something or nothing. -/
theorem exists_counts (r : Reading) : ∃ c, Counts r c := by
  cases r with
  | finite x => exact ⟨_, counts_iff.2 rfl⟩
  | infinite negative => exact ⟨none, .infinite negative⟩
  | nan => exact ⟨none, .nan⟩

/-- Every value has a count or is refused. -/
theorem exists_coerces (v : Json) : ∃ c, Coerces v c := by
  cases v with
  | num n =>
    cases n with
    | int i hrange =>
      rcases Int.lt_or_le i 0 with hneg | hpos
      · exact ⟨none, .negative hrange hneg⟩
      · have hlt : i.toNat < UInt64.size := by
          have hsize : UInt64.size = 18446744073709551616 := rfl
          omega
        have hvalue : i = (UInt64.ofNat i.toNat).toNat := by
          rw [UInt64.toNat_ofNat_of_lt' hlt]
          omega
        exact ⟨_, .word hrange hvalue⟩
    | float x => exact ⟨_, .float (counts_iff.2 rfl)⟩
  | str t =>
    have htrim : Text.TrimsTo t t.trim := Text.trimsTo_iff.2 rfl
    by_cases hword : ∃ w, SpelledWord w t.trim
    · obtain ⟨w, hword⟩ := hword
      exact ⟨_, .wordText htrim hword⟩
    · have hno : ∀ w, ¬ SpelledWord w t.trim := not_exists.1 hword
      by_cases hreads : ∃ r, ReadsAs t.trim r
      · obtain ⟨r, hreads⟩ := hreads
        obtain ⟨c, hcounts⟩ := exists_counts r
        exact ⟨c, .floatText htrim hno hreads hcounts⟩
      · exact ⟨none, .noText htrim hno (not_exists.1 hreads)⟩
  | null => exact ⟨none, .other (by rintro _ ⟨⟩) (by rintro _ ⟨⟩)⟩
  | bool b => exact ⟨none, .other (by rintro _ ⟨⟩) (by rintro _ ⟨⟩)⟩
  | arr items => exact ⟨none, .other (by rintro _ ⟨⟩) (by rintro _ ⟨⟩)⟩
  | obj members => exact ⟨none, .other (by rintro _ ⟨⟩) (by rintro _ ⟨⟩)⟩

/-- **What is computed is the count of the value.** -/
theorem ofJson?_of_coerces {v : Json} (h : Coerces v c) : ofJson? v = c := by
  cases h with
  | word hrange hvalue =>
    rename_i w i
    subst hvalue
    change (if (0 : Int) ≤ w.toNat then some (UInt64.ofNat (Int.toNat w.toNat)) else none) = some w
    rw [if_pos (Int.natCast_nonneg _), Int.toNat_natCast, UInt64.ofNat_toNat]
  | negative hrange hbelow => exact if_neg (Int.not_le.2 hbelow)
  | float hcounts => exact counts_iff.1 hcounts
  | wordText htrim hword => exact ofText?_word htrim hword
  | floatText htrim hno hreads hcounts =>
    exact (ofText?_eq htrim hno).trans (count_of_readsAs hreads hcounts)
  | noText htrim hno hreads =>
    have heq := ofText?_eq htrim hno
    rw [numeral?_eq_none hreads] at heq
    exact heq
  | other hnumber htext =>
    cases v with
    | num n => exact absurd rfl (hnumber n)
    | str t => exact absurd rfl (htext t)
    | _ => rfl

theorem ofJson?_eq_iff {v : Json} : ofJson? v = c ↔ Coerces v c := by
  constructor
  · rintro rfl
    obtain ⟨c, hcoerces⟩ := exists_coerces v
    rwa [ofJson?_of_coerces hcoerces]
  · exact ofJson?_of_coerces

theorem compile_eq (operation : Operation) (v : Json) :
    compile operation v = verdict operation (ofJson? v) := by
  rw [compile]
  cases ofJson? v <;> rfl

/-- An answer tells which count it is for. -/
theorem verdict_inj {operation : Operation} {c d : Option UInt64}
    (h : verdict operation c = verdict operation d) : c = d := by
  cases c <;> cases d <;> cases h <;> rfl

/-- **Which values are row limits and offsets, and what they count.** The
two operations answer every value with the count that the relation gives
it, and with their refusal where it gives none. -/
theorem compile_eq_verdict_iff (v : Json) (c : Option UInt64) :
    (compile .limit v = verdict .limit c ↔ Coerces v c) ∧
      (compile .offset v = verdict .offset c ↔ Coerces v c) := by
  have heach : ∀ operation, compile operation v = verdict operation c ↔ Coerces v c := by
    intro operation
    rw [compile_eq, ← ofJson?_eq_iff]
    exact ⟨verdict_inj, congrArg _⟩
  exact ⟨heach .limit, heach .offset⟩

end Count

end DocQuery
