import DocQuery.Json.Tree
/-!
# The grammar of numerals

How numbers may be spelled, as relations between numerals and texts. The
digits, signs and exponents are those that JSON shares with other notations,
and `Spelled` is JSON's own: at most a minus sign in front, no zero in
front of other digits, and digits on both sides of a point. The reader of
JSON numerals takes what the grammar has and nothing else
(`spelled_of_numeral?`, `numeral?_spelled`).
-/

namespace DocQuery

namespace Numeral

/-! ## Digits -/

/-- Whether a character could go on a numeral. -/
def goesOn (c : Char) : Bool := c.isDigit || c = '.' || c = 'e' || c = 'E'

/-- **What may stand behind a numeral**: a text that does not go on
with it. -/
def Ends (rest : Text) : Prop := rest.head?.all (!goesOn ·)

/-- Digits, one at least. -/
structure IsRun (ds : Text) : Prop where
  /-- There are digits only. -/
  all : ds.all Char.isDigit
  /-- There is one at least. -/
  ne_nil : ds ≠ []

variable {ds rest t : Text} {c : Char}

/-- The first character behind a numeral. -/
theorem Ends.head (h : Ends (c :: rest)) : goesOn c = false := by
  simpa [Ends] using h

/-- A mark that does not go on with a numeral ends it. -/
theorem ends_cons (h : goesOn c = false) : Ends (c :: rest) := by
  simp [Ends, h]

/-- What ends a numeral ends its digits, and is no point and no mark of an
exponent. -/
theorem Ends.no_digit (h : Ends rest) : rest.head?.all (!Char.isDigit ·) := by
  cases rest with
  | nil => rfl
  | cons c rest =>
    have hc := h.head
    simp only [goesOn, Bool.or_eq_false_iff] at hc
    simp [hc.1.1.1]

/-- A run of digits begins with a digit. -/
theorem IsRun.exists_head (h : IsRun ds) : ∃ d tail, ds = d :: tail ∧ d.isDigit := by
  obtain ⟨d, tail, hsplit⟩ := List.exists_cons_of_ne_nil h.ne_nil
  have hdigit : d.isDigit := List.all_eq_true.1 h.all d (hsplit ▸ List.mem_cons_self)
  exact ⟨d, tail, hsplit, hdigit⟩

/-- The digits at the front and the rest are the whole text. -/
theorem spanDigits_eq (t : Text) : (spanDigits t).1 ++ (spanDigits t).2 = t :=
  List.takeWhile_append_dropWhile

theorem all_isDigit_spanDigits (t : Text) : (spanDigits t).1.all Char.isDigit :=
  List.all_takeWhile

/-- Digits are split off in front of anything but a digit. -/
theorem spanDigits_append (hds : ds.all Char.isDigit) (hrest : rest.head?.all (!Char.isDigit ·)) :
    spanDigits (ds ++ rest) = (ds, rest) := by
  have hall : ∀ c ∈ ds, c.isDigit := List.all_eq_true.1 hds
  have hnone : rest.takeWhile Char.isDigit = [] ∧ rest.dropWhile Char.isDigit = rest := by
    cases rest with
    | nil => exact ⟨rfl, rfl⟩
    | cons c rest =>
      have hc : ¬ c.isDigit := by simpa using hrest
      exact ⟨List.takeWhile_cons_of_neg hc, List.dropWhile_cons_of_neg hc⟩
  rw [spanDigits, List.takeWhile_append_of_pos hall, List.dropWhile_append_of_pos hall, hnone.1,
    hnone.2, List.append_nil]

theorem digits?_append (h : IsRun ds) (hrest : rest.head?.all (!Char.isDigit ·)) :
    digits? (ds ++ rest) = some (ds, rest) := by
  obtain ⟨d, tail, rfl, -⟩ := h.exists_head
  rw [digits?, spanDigits_append h.all hrest]

/-- What is taken as digits is a run of them. -/
theorem isRun_of_digits? (h : digits? t = some (ds, rest)) : IsRun ds ∧ t = ds ++ rest := by
  have hsplit := spanDigits_eq t
  have hall := all_isDigit_spanDigits t
  rw [digits?] at h
  split at h
  · cases h
  · rename_i hne
    obtain hspan : spanDigits t = (ds, rest) := Option.some.inj h
    rw [hspan] at hsplit hall
    refine ⟨⟨hall, ?_⟩, hsplit.symm⟩
    rintro rfl
    exact hne rest hspan

/-! ## Exponents -/

/-- An integer by its sign and magnitude. -/
def signed (negative : Bool) (magnitude : Nat) : Int :=
  if negative then -magnitude else magnitude

/-- A sign or none, and whether it is a minus. -/
inductive SpelledSign : Bool → Text → Prop
  | none : SpelledSign false []
  | plus : SpelledSign false ['+']
  | minus : SpelledSign true ['-']

/-- **The spellings of an exponent**: nothing, or a mark of either case, a
sign or none, and digits. -/
inductive SpelledExponent : Option Int → Text → Prop
  /-- There is none. -/
  | absent : SpelledExponent none []
  /-- A power of ten. -/
  | present {mark : Char} {negative : Bool} {sign digits : Text} (isMark : mark = 'e' ∨ mark = 'E')
      (isSign : SpelledSign negative sign) (isRun : IsRun digits) :
      SpelledExponent (some (signed negative (Text.toNat digits))) (mark :: (sign ++ digits))

variable {e : Option Int} {s : Text}

/-- What is taken as an exponent is one. -/
theorem exists_spelled_of_exponent? (h : exponent? t = some (e, rest)) :
    ∃ s, SpelledExponent e s ∧ t = s ++ rest := by
  rw [exponent?.eq_def] at h
  split at h
  · cases h
    exact ⟨[], .absent, rfl⟩
  · rename_i c t
    split at h
    · rename_i hmark
      split at h
      · obtain ⟨⟨ds, r⟩, hdigits, heq⟩ := Option.map_eq_some_iff.1 h
        obtain ⟨hrun, rfl⟩ := isRun_of_digits? hdigits
        cases heq
        exact ⟨_, .present hmark .minus hrun, rfl⟩
      · obtain ⟨⟨ds, r⟩, hdigits, heq⟩ := Option.map_eq_some_iff.1 h
        obtain ⟨hrun, rfl⟩ := isRun_of_digits? hdigits
        cases heq
        exact ⟨_, .present hmark .plus hrun, rfl⟩
      · obtain ⟨⟨ds, r⟩, hdigits, heq⟩ := Option.map_eq_some_iff.1 h
        obtain ⟨hrun, rfl⟩ := isRun_of_digits? hdigits
        cases heq
        exact ⟨_, .present hmark .none hrun, rfl⟩
    · cases h
      exact ⟨[], .absent, rfl⟩

/-- **An exponent is taken to its end.** -/
theorem exponent?_spelled (h : SpelledExponent e s) (hrest : Ends rest) :
    exponent? (s ++ rest) = some (e, rest) := by
  cases h with
  | absent =>
    cases rest with
    | nil => rfl
    | cons c rest =>
      have hc := hrest.head
      simp only [goesOn, Bool.or_eq_false_iff, decide_eq_false_iff_not] at hc
      exact if_neg (not_or.2 ⟨hc.1.2, hc.2⟩)
  | present hmark hsign hrun =>
    have hdigits := digits?_append hrun hrest.no_digit
    cases hsign with
    | none =>
      obtain ⟨d, tail, rfl, hdigit⟩ := hrun.exists_head
      have hminus : d ≠ '-' := Text.ne_of_holds hdigit rfl
      have hplus : d ≠ '+' := Text.ne_of_holds hdigit rfl
      rw [List.cons_append, List.nil_append, exponent?, if_pos hmark, hdigits]
      · rfl
      · exact fun t heq => hminus (List.cons_eq_cons.1 heq).1
      · exact fun t heq => hplus (List.cons_eq_cons.1 heq).1
    | plus =>
      rw [List.cons_append, List.append_assoc, List.singleton_append, exponent?, if_pos hmark,
        hdigits]
      rfl
    | minus =>
      rw [List.cons_append, List.append_assoc, List.singleton_append, exponent?, if_pos hmark,
        hdigits]
      rfl

/-- What begins with no digit and no point begins with no digit. -/
theorem no_digit_of_no_point (h : t.head?.all fun c => !c.isDigit && c ≠ '.') :
    t.head?.all (!Char.isDigit ·) := by
  cases t with
  | nil => rfl
  | cons c t =>
    simp only [List.head?_cons, Option.all_some, Bool.and_eq_true] at h ⊢
    exact h.1

/-- An exponent begins with no digit and no point. -/
theorem SpelledExponent.head? (h : SpelledExponent e s) (hrest : Ends rest) :
    (s ++ rest).head?.all fun c => !c.isDigit && c ≠ '.' := by
  cases h with
  | absent =>
    cases rest with
    | nil => rfl
    | cons c rest =>
      have hc := hrest.head
      simp only [goesOn, Bool.or_eq_false_iff, decide_eq_false_iff_not] at hc
      simp [hc.1.1.1, hc.1.1.2]
  | present hmark _ _ =>
    rcases hmark with rfl | rfl <;> rfl

/-! ## JSON numerals -/

/-- The minus sign of a numeral, if it has one. -/
def minus (negative : Bool) : Text := if negative then ['-'] else []

/-- The text of a fraction. -/
def fractionText (fraction : Text) : Text := if fraction.isEmpty then [] else '.' :: fraction

/-- A numeral that JSON has: digits on both sides of the point, and no
zero in front of other digits. -/
structure IsReadable (n : Numeral) : Prop where
  /-- The whole part has digits only. -/
  whole : n.whole.all Char.isDigit
  /-- It has one at least. -/
  whole_ne_nil : n.whole ≠ []
  /-- It is a single zero, or it does not begin with one. -/
  zero : n.whole = ['0'] ∨ n.whole.head? ≠ some '0'
  /-- The fraction has digits only. -/
  fraction : n.fraction.all Char.isDigit

/-- **The spellings of a numeral in JSON.** -/
inductive Spelled : Numeral → Text → Prop
  | mk {n : Numeral} {exponent : Text} (readable : n.IsReadable)
      (isExponent : SpelledExponent n.exponent exponent) :
      Spelled n (minus n.negative ++ (n.whole ++ (fractionText n.fraction ++ exponent)))

variable {n : Numeral}

/-- The whole part is a run of digits. -/
theorem IsReadable.isRun (h : n.IsReadable) : IsRun n.whole := ⟨h.whole, h.whole_ne_nil⟩

/-- The sign is read, since no digit is one. -/
theorem sign_append (h : n.IsReadable) (t : Text) :
    Tree.sign (minus n.negative ++ (n.whole ++ t)) = (n.negative, n.whole ++ t) := by
  cases n.negative with
  | true => rfl
  | false =>
    obtain ⟨d, ds, hsplit, hdigit⟩ := h.isRun.exists_head
    have hminus : d ≠ '-' := Text.ne_of_holds hdigit rfl
    rw [hsplit]
    change Tree.sign (d :: (ds ++ t)) = (false, d :: (ds ++ t))
    rw [Tree.sign]
    intro rest heq
    exact hminus (List.cons_eq_cons.1 heq).1

/-- The whole part is read up to anything but a digit. -/
theorem whole?_append (h : n.IsReadable) (ht : t.head?.all (!Char.isDigit ·)) :
    Tree.whole? (n.whole ++ t) = some (n.whole, t) := by
  rcases h.zero with hzero | hhead
  · rw [hzero]
    rfl
  · have hdigits := digits?_append h.isRun ht
    obtain ⟨d, ds, hsplit, -⟩ := h.isRun.exists_head
    rw [hsplit] at hhead hdigits ⊢
    rw [Tree.whole?]
    · exact hdigits
    · intro rest heq
      exact hhead (congrArg some (List.cons_eq_cons.1 heq).1)

/-- The fraction is read up to anything but a digit or a point. -/
theorem fraction?_append {fraction : Text} (hdigits : fraction.all Char.isDigit)
    (ht : t.head?.all fun c => !c.isDigit && c ≠ '.') :
    Tree.fraction? (fractionText fraction ++ t) = some (fraction, t) := by
  cases fraction with
  | nil =>
    rw [fractionText, List.isEmpty_nil, if_pos rfl, List.nil_append, Tree.fraction?]
    rintro rest rfl
    simp at ht
  | cons d ds => exact digits?_append ⟨hdigits, List.cons_ne_nil d ds⟩ (no_digit_of_no_point ht)

/-- **A JSON numeral is read as itself**, with anything behind it that does
not go on with the number. -/
theorem numeral?_spelled (h : Spelled n s) (hrest : Ends rest) :
    Tree.numeral? (s ++ rest) = some (n, rest) := by
  obtain ⟨hreadable, hexponent⟩ := h
  rename_i exponent
  have hhead := hexponent.head? hrest
  have hnone : (fractionText n.fraction ++ (exponent ++ rest)).head?.all (!Char.isDigit ·) := by
    cases hfraction : n.fraction with
    | nil => exact no_digit_of_no_point hhead
    | cons d ds => rfl
  rw [List.append_assoc, List.append_assoc, List.append_assoc, Tree.numeral?, sign_append hreadable]
  simp only [whole?_append hreadable hnone, fraction?_append hreadable.fraction hhead,
    exponent?_spelled hexponent hrest, Option.bind_eq_bind, Option.bind_some]
  rfl

/-- A sign that was read is a minus sign or none. -/
theorem minus_append_sign (t : Text) : minus (Tree.sign t).1 ++ (Tree.sign t).2 = t := by
  rw [Tree.sign.eq_def]
  split <;> rfl

/-- A whole part that was read is a run of digits without a zero in front
of others. -/
theorem isRun_of_whole? (h : Tree.whole? t = some (ds, rest)) :
    IsRun ds ∧ (ds = ['0'] ∨ ds.head? ≠ some '0') ∧ t = ds ++ rest := by
  rw [Tree.whole?.eq_def] at h
  split at h
  · cases h
    exact ⟨⟨rfl, List.cons_ne_nil _ _⟩, .inl rfl, rfl⟩
  · rename_i hzero
    obtain ⟨hrun, rfl⟩ := isRun_of_digits? h
    obtain ⟨d, tail, rfl, -⟩ := hrun.exists_head
    refine ⟨hrun, .inr fun hhead => ?_, rfl⟩
    obtain rfl : d = '0' := Option.some.inj hhead
    exact hzero _ rfl

/-- A fraction that was read stands behind its point, or is not there. -/
theorem all_isDigit_of_fraction? (h : Tree.fraction? t = some (ds, rest)) :
    ds.all Char.isDigit ∧ t = fractionText ds ++ rest := by
  rw [Tree.fraction?.eq_def] at h
  split at h
  · obtain ⟨hrun, rfl⟩ := isRun_of_digits? h
    obtain ⟨d, tail, rfl, -⟩ := hrun.exists_head
    exact ⟨hrun.all, rfl⟩
  · cases h
    exact ⟨rfl, rfl⟩

/-- **What is read as a JSON numeral is one.** -/
theorem spelled_of_numeral? (h : Tree.numeral? t = some (n, rest)) :
    ∃ s, Spelled n s ∧ t = s ++ rest := by
  have hsign := minus_append_sign t
  rw [Tree.numeral?] at h
  generalize Tree.sign t = signed at hsign h
  obtain ⟨negative, t₀⟩ := signed
  obtain ⟨⟨w, t₁⟩, hw, h⟩ := Option.bind_eq_some_iff.1 h
  obtain ⟨⟨f, t₂⟩, hf, h⟩ := Option.bind_eq_some_iff.1 h
  obtain ⟨⟨e, t₃⟩, he, h⟩ := Option.bind_eq_some_iff.1 h
  cases h
  obtain ⟨hrun, hzero, rfl⟩ := isRun_of_whole? hw
  obtain ⟨hdigits, rfl⟩ := all_isDigit_of_fraction? hf
  obtain ⟨s, hexponent, rfl⟩ := exists_spelled_of_exponent? he
  have hreadable : IsReadable ⟨negative, w, f, e⟩ := ⟨hrun.all, hrun.ne_nil, hzero, hdigits⟩
  refine ⟨_, .mk hreadable hexponent, ?_⟩
  rw [← hsign]
  simp only [List.append_assoc]

end Numeral

end DocQuery
