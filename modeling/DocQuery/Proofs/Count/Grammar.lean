import DocQuery.Clause
import DocQuery.Proofs.Numeral.Grammar
/-!
# The grammar of row counts

Two grammars stand behind the row counts of texts, tried one after the
other: words of 64 bits, in digits with a plus sign or without, and
numerals, which are freer than those of JSON (`Spells`). Both readers take
what their grammar has and nothing else (`word?_eq_some_iff`,
`numeral?_eq_some_iff`).
-/

namespace DocQuery

namespace Count

open Numeral

variable {t : Text} {n : Numeral} {negative : Bool} {sg : Text}

/-! ## Words -/

/-- **The spellings of a 64-bit word**: its digits, with or without zeros
in front, behind a plus sign or none. -/
inductive SpelledWord (w : UInt64) : Text → Prop
  /-- There is no sign. -/
  | digits {ds : Text} (isRun : IsRun ds) (value : Text.toNat ds = w.toNat) : SpelledWord w ds
  /-- There is a plus sign. -/
  | plus {ds : Text} (isRun : IsRun ds) (value : Text.toNat ds = w.toNat) :
      SpelledWord w ('+' :: ds)

/-- The digits of a word, whether or not a plus sign leads. -/
theorem exists_digits_word? (t : Text) : ∃ ds : Text, (t = ds ∨ t = '+' :: ds) ∧
    word? t = if ds ≠ [] ∧ ds.all Char.isDigit ∧ Text.toNat ds < UInt64.size then
      some (UInt64.ofNat (Text.toNat ds)) else none := by
  by_cases hplus : ∃ ds, t = '+' :: ds
  · obtain ⟨ds, rfl⟩ := hplus
    exact ⟨ds, .inr rfl, rfl⟩
  · refine ⟨t, .inl rfl, ?_⟩
    rw [word?]
    exact fun ds heq => hplus ⟨ds, heq⟩

/-- A run of digits within 64 bits is the word it counts. -/
theorem word?_of_isRun {ds : Text} {w : UInt64} (h : IsRun ds) (hvalue : Text.toNat ds = w.toNat) :
    word? ds = some w ∧ word? ('+' :: ds) = some w := by
  have hword : (if ds ≠ [] ∧ ds.all Char.isDigit ∧ Text.toNat ds < UInt64.size then
      some (UInt64.ofNat (Text.toNat ds)) else none) = some w := by
    rw [if_pos ⟨h.ne_nil, h.all, hvalue ▸ w.toNat_lt_size⟩, hvalue, UInt64.ofNat_toNat]
  obtain ⟨d, tail, rfl, hdigit⟩ := h.exists_head
  have hplus : d ≠ '+' := Text.ne_of_holds hdigit rfl
  refine ⟨?_, hword⟩
  rw [word?]
  · exact hword
  · exact fun ds heq => hplus (List.cons_eq_cons.1 heq).1

/-- **A text is taken as a word exactly when it spells it.** -/
theorem word?_eq_some_iff {w : UInt64} : word? t = some w ↔ SpelledWord w t := by
  constructor
  · intro h
    obtain ⟨ds, hsplit, hword⟩ := exists_digits_word? t
    rw [h] at hword
    obtain ⟨⟨hne, hall, hlt⟩, hw⟩ := Option.ite_none_right_eq_some.1 hword.symm
    have hvalue : Text.toNat ds = w.toNat := by
      rw [← Option.some.inj hw, UInt64.toNat_ofNat_of_lt' hlt]
    rcases hsplit with rfl | rfl
    · exact .digits ⟨hall, hne⟩ hvalue
    · exact .plus ⟨hall, hne⟩ hvalue
  · intro h
    cases h with
    | digits hrun hvalue => exact (word?_of_isRun hrun hvalue).1
    | plus hrun hvalue => exact (word?_of_isRun hrun hvalue).2

/-- What spells no word is not taken as one. -/
theorem word?_eq_none (h : ∀ w, ¬ SpelledWord w t) : word? t = none := by
  cases hword : word? t with
  | none => rfl
  | some w => exact absurd (word?_eq_some_iff.1 hword) (h w)

/-- No word is spelled with a character other than a plus sign and
digits. -/
theorem SpelledWord.isDigit_of_mem {w : UInt64} {c : Char} (h : SpelledWord w t) (hc : c ∈ t) :
    c.isDigit ∨ c = '+' := by
  cases h with
  | digits hrun _ => exact .inl (List.all_eq_true.1 hrun.all c hc)
  | plus hrun _ =>
    rcases List.mem_cons.1 hc with rfl | hc
    · exact .inr rfl
    · exact .inl (List.all_eq_true.1 hrun.all c hc)

/-! ## Numerals -/

/-- **The spellings of digits around a point**: there may be no point, and
behind or in front of one there may be no digits, but not on both sides. -/
inductive SpelledMantissa : Text → Text → Text → Prop
  /-- There is no point. -/
  | whole {w : Text} (isRun : IsRun w) : SpelledMantissa w [] w
  /-- There is one. -/
  | point {w f : Text} (whole : w.all Char.isDigit) (fraction : f.all Char.isDigit)
      (some_digit : w ≠ [] ∨ f ≠ []) : SpelledMantissa w f (w ++ '.' :: f)

/-- **The spellings of a numeral in a text**: a sign of either kind or
none, digits with or without a point, and an exponent or none. -/
inductive Spells : Numeral → Text → Prop
  | mk {n : Numeral} {sg mantissa exponent : Text} (isSign : SpelledSign n.negative sg)
      (isMantissa : SpelledMantissa n.whole n.fraction mantissa)
      (isExponent : SpelledExponent n.exponent exponent) :
      Spells n (sg ++ (mantissa ++ exponent))

/-- A text that begins with a digit or a point. -/
def BeginsNumber (t : Text) : Prop := ∃ c rest, t = c :: rest ∧ (c.isDigit ∨ c = '.')

theorem SpelledMantissa.begins {w f m : Text} (h : SpelledMantissa w f m) (rest : Text) :
    BeginsNumber (m ++ rest) := by
  cases h with
  | whole hrun =>
    obtain ⟨d, tail, rfl, hdigit⟩ := hrun.exists_head
    exact ⟨d, tail ++ rest, rfl, .inl hdigit⟩
  | point hw _ _ =>
    cases w with
    | nil => exact ⟨'.', f ++ rest, rfl, .inr rfl⟩
    | cons d w =>
      have hdigit : d.isDigit := List.all_eq_true.1 hw d List.mem_cons_self
      exact ⟨d, w ++ '.' :: f ++ rest, rfl, .inl hdigit⟩

/-- A text that begins with no sign is left whole. -/
theorem sign_eq (h : t.head?.all fun c => c ≠ '-' && c ≠ '+') : sign t = (false, t) := by
  rw [sign.eq_def]
  split
  · cases h
  · cases h
  · rfl

/-- A sign is taken from a text that has none itself. -/
theorem sign_append (hsign : SpelledSign negative sg)
    (ht : t.head?.all fun c => c ≠ '-' && c ≠ '+') : sign (sg ++ t) = (negative, t) := by
  cases hsign with
  | none => exact sign_eq ht
  | plus => rfl
  | minus => rfl

/-- What begins a number is no sign. -/
theorem BeginsNumber.no_sign (h : BeginsNumber t) : t.head?.all fun c => c ≠ '-' && c ≠ '+' := by
  obtain ⟨c, rest, rfl, hc⟩ := h
  rcases hc with hdigit | rfl
  · have hminus : c ≠ '-' := Text.ne_of_holds hdigit rfl
    have hplus : c ≠ '+' := Text.ne_of_holds hdigit rfl
    simp [hminus, hplus]
  · rfl

/-- The sign that was taken and the rest are the text. -/
theorem exists_spelledSign (t : Text) :
    ∃ sg, SpelledSign (sign t).1 sg ∧ t = sg ++ (sign t).2 := by
  rw [sign.eq_def]
  split
  · exact ⟨['-'], .minus, rfl⟩
  · exact ⟨['+'], .plus, rfl⟩
  · exact ⟨[], .none, rfl⟩

/-- A text that begins with no point has no fraction in front. -/
theorem fraction_eq (h : t.head?.all fun c => !c.isDigit && c ≠ '.') : fraction t = ([], t) := by
  rw [fraction.eq_def]
  split
  · cases h
  · rfl

/-- Digits and a point are taken up to anything that is neither. -/
theorem mantissa_append {w f m rest : Text} (h : SpelledMantissa w f m)
    (hrest : rest.head?.all fun c => !c.isDigit && c ≠ '.') :
    spanDigits (m ++ rest) = (w, (spanDigits (m ++ rest)).2) ∧
      fraction (spanDigits (m ++ rest)).2 = (f, rest) ∧ (w.isEmpty && f.isEmpty) = false := by
  have hnone := no_digit_of_no_point hrest
  cases h with
  | whole hrun =>
    have hspan := spanDigits_append hrun.all hnone
    have hempty : w.isEmpty = false := by simpa using hrun.ne_nil
    rw [hspan, hempty]
    exact ⟨rfl, fraction_eq hrest, rfl⟩
  | point hw hf hsome =>
    have hpoint : ('.' :: (f ++ rest)).head?.all (!Char.isDigit ·) := rfl
    have hspan := spanDigits_append hw hpoint
    have hfraction : fraction ('.' :: (f ++ rest)) = (f, rest) := spanDigits_append hf hnone
    rw [List.append_assoc, List.cons_append, hspan]
    refine ⟨rfl, hfraction, ?_⟩
    rw [Bool.and_eq_false_iff]
    exact hsome.imp (by simpa using ·) (by simpa using ·)

/-- **A numeral of a text is read as itself.** -/
theorem numeral?_of_spells (h : Spells n t) : numeral? t = some n := by
  obtain ⟨hsign, hmantissa, hexponent⟩ := h
  rename_i sg mantissa exponent
  have hempty : Ends [] := rfl
  have hhead := hexponent.head? hempty
  have hexp := exponent?_spelled hexponent hempty
  rw [List.append_nil] at hhead hexp
  obtain ⟨hspan, hfraction, hsome⟩ := mantissa_append hmantissa hhead
  rw [numeral?, sign_append hsign (hmantissa.begins exponent).no_sign]
  dsimp only
  rw [hspan]
  simp only [hfraction, hsome, hexp, Bool.false_eq_true, if_false, Option.bind_eq_bind,
    Option.bind_some]
  rfl

/-- A point that was taken has its digits behind it. -/
theorem exists_fraction (t : Text) (w : Text) (hw : w.all Char.isDigit)
    (hsome : (w.isEmpty && (fraction t).1.isEmpty) = false) :
    ∃ m, SpelledMantissa w (fraction t).1 m ∧ w ++ t = m ++ (fraction t).2 := by
  have hne : w ≠ [] ∨ (fraction t).1 ≠ [] := by
    simpa only [Bool.and_eq_false_iff, List.isEmpty_eq_false_iff] using hsome
  rw [fraction.eq_def] at hne ⊢
  split at hne
  · rename_i rest
    refine ⟨_, .point hw (all_isDigit_spanDigits rest) hne, ?_⟩
    have hsplit := spanDigits_eq rest
    rw [List.append_assoc, List.cons_append, hsplit]
  · refine ⟨w, .whole ⟨hw, ?_⟩, rfl⟩
    exact hne.resolve_right fun h => h rfl

/-- **What is read as a numeral spells it.** -/
theorem spells_of_numeral? (h : numeral? t = some n) : Spells n t := by
  obtain ⟨sg, hsign, hsplit⟩ := exists_spelledSign t
  rw [numeral?] at h
  generalize sign t = signed at hsign hsplit h
  obtain ⟨negative, t₀⟩ := signed
  have hall := all_isDigit_spanDigits t₀
  have hspan := spanDigits_eq t₀
  dsimp only at hsign hsplit h
  split at h
  · cases h
  · rename_i hsome
    obtain ⟨⟨e, rest⟩, hexp, h⟩ := Option.bind_eq_some_iff.1 h
    obtain ⟨m, hmantissa, hm⟩ :=
      exists_fraction (spanDigits t₀).2 _ hall (Bool.not_eq_true _ ▸ hsome)
    obtain ⟨s, hexponent, hs⟩ := exists_spelled_of_exponent? hexp
    dsimp only at h
    split at h
    · rename_i hempty
      cases h
      obtain rfl : rest = [] := List.isEmpty_iff.1 hempty
      have htext : t = sg ++ (m ++ s) := by
        rw [hsplit, ← hspan, hm, hs, List.append_nil]
      rw [htext]
      exact .mk hsign hmantissa hexponent
    · cases h

/-- **A text is read as a numeral exactly when it spells it.** -/
theorem numeral?_eq_some_iff : numeral? t = some n ↔ Spells n t :=
  ⟨spells_of_numeral?, numeral?_of_spells⟩

/-- A numeral that JSON has is a numeral of texts too. -/
theorem spells_of_spelled (h : Spelled n t) : Spells n t := by
  obtain ⟨hreadable, hexponent⟩ := h
  have hsign : SpelledSign n.negative (minus n.negative) := by
    cases n.negative with
    | true => exact .minus
    | false => exact .none
  have hmantissa : SpelledMantissa n.whole n.fraction (n.whole ++ fractionText n.fraction) := by
    rw [fractionText]
    split
    · rename_i hempty
      rw [List.append_nil, List.isEmpty_iff.1 hempty]
      exact .whole hreadable.isRun
    · exact .point hreadable.whole hreadable.fraction (.inl hreadable.whole_ne_nil)
  have hspells := Spells.mk hsign hmantissa hexponent
  rw [List.append_assoc] at hspells
  exact hspells

end Count

end DocQuery
