import DocQuery.Json.Read
import DocQuery.Proofs.Json.Grammar
/-!
# What strings denote

A text has many spellings as a JSON string. Each of its characters stands
for itself, behind a backslash or not, or is given by its code in UTF-16:
one unit, and two for a character beyond the first `2 ^ 16`.
`Piece.Denotes` says so of the pieces into which the grammar takes a
string apart. The pieces of a string denote one text at most, and the
reader finds it (`text?_eq_some_iff`); of lone surrogates there is none.
-/

namespace DocQuery

namespace Piece

/-- **The text that pieces denote.** -/
inductive Denotes : List Piece → Text → Prop
  | nil : Denotes [] []
  /-- A character. -/
  | char {c : Char} {ps : List Piece} {s : Text} (rest : Denotes ps s) :
      Denotes (.char c :: ps) (c :: s)
  /-- A character by its code. -/
  | unit {c : Char} {ps : List Piece} {s : Text} (isShort : c.toNat < 0x10000)
      (rest : Denotes ps s) : Denotes (.unit c.toNat :: ps) (c :: s)
  /-- A character by the two surrogates of its code. -/
  | pair {c : Char} {ps : List Piece} {s : Text} (isLong : 0x10000 ≤ c.toNat)
      (rest : Denotes ps s) :
      Denotes (.unit (0xD800 + (c.toNat - 0x10000) / 0x400) ::
        .unit (0xDC00 + (c.toNat - 0x10000) % 0x400) :: ps) (c :: s)

variable {c : Char} {ps : List Piece} {s : Text}

/-! ## Single characters -/

/-- The codes of characters: there is none among the surrogates. -/
theorem toNat_valid (c : Char) : c.toNat < 0xD800 ∨ 0xDFFF < c.toNat ∧ c.toNat < 0x110000 :=
  c.valid

theorem text?_char (c : Char) (ps : List Piece) :
    text? (.char c :: ps) = (text? ps).map (c :: ·) := by
  rw [text?]
  cases text? ps <;> rfl

/-- A unit that is no surrogate is a character. -/
theorem text?_unit (h : c.toNat < 0x10000) (ps : List Piece) :
    text? (.unit c.toNat :: ps) = (text? ps).map (c :: ·) := by
  have hvalid := toNat_valid c
  have hhigh : isHighSurrogate c.toNat = false := by
    simp only [isHighSurrogate, Bool.and_eq_false_iff, decide_eq_false_iff_not]
    omega
  have hlow : isLowSurrogate c.toNat = false := by
    simp only [isLowSurrogate, Bool.and_eq_false_iff, decide_eq_false_iff_not]
    omega
  rw [text?.eq_def]
  simp only [hhigh, hlow, Char.ofNat_toNat, Bool.false_eq_true, if_false]
  cases text? ps <;> rfl

/-- And two halves of a pair are one. -/
theorem text?_pair (h : 0x10000 ≤ c.toNat) (ps : List Piece) :
    text? (.unit (0xD800 + (c.toNat - 0x10000) / 0x400) ::
      .unit (0xDC00 + (c.toNat - 0x10000) % 0x400) :: ps) = (text? ps).map (c :: ·) := by
  have hvalid := toNat_valid c
  have hhigh : isHighSurrogate (0xD800 + (c.toNat - 0x10000) / 0x400) := by
    simp only [isHighSurrogate, Bool.and_eq_true, decide_eq_true_eq]
    omega
  have hlow : isLowSurrogate (0xDC00 + (c.toNat - 0x10000) % 0x400) := by
    simp only [isLowSurrogate, Bool.and_eq_true, decide_eq_true_eq]
    omega
  have hcode : 0x10000 + (0xD800 + (c.toNat - 0x10000) / 0x400 - 0xD800) * 0x400 +
      (0xDC00 + (c.toNat - 0x10000) % 0x400 - 0xDC00) = c.toNat := by
    omega
  rw [text?.eq_def]
  simp only [hhigh, hlow, if_true, pairedChar, hcode, Char.ofNat_toNat]
  cases text? ps <;> rfl

/-! ## Texts -/

/-- **Pieces that denote a text are read as it.** -/
theorem Denotes.text? (h : Denotes ps s) : Piece.text? ps = some s := by
  induction h with
  | nil => rfl
  | char _ ih => rw [text?_char, ih]; rfl
  | unit hshort _ ih => rw [text?_unit hshort, ih]; rfl
  | pair hlong _ ih => rw [text?_pair hlong, ih]; rfl

/-- So they denote no other. -/
theorem Denotes.unique {t : Text} (hs : Denotes ps s) (ht : Denotes ps t) : s = t :=
  Option.some.inj (hs.text?.symm.trans ht.text?)

/-- A text is denoted by its characters. -/
theorem denotes_chars (s : Text) : Denotes (s.map .char) s := by
  induction s with
  | nil => exact .nil
  | cons c s ih => exact .char ih

/-- The character of a code that is no surrogate. -/
theorem toNat_ofNat_of_lt {u : Nat} (h : u < 0xD800 ∨ 0xDFFF < u ∧ u < 0x110000) :
    (Char.ofNat u).toNat = u := by
  rw [Char.ofNat, dif_pos h]
  rfl

/-- Units that the reader takes one by one, or in pairs, denote what it
makes of them. -/
theorem denotes_unit {u : Nat} (hhigh : ¬ isHighSurrogate u) (hlow : ¬ isLowSurrogate u)
    (hunit : u < 0x10000) (rest : Denotes ps s) :
    Denotes (.unit u :: ps) (Char.ofNat u :: s) := by
  simp only [isHighSurrogate, isLowSurrogate, Bool.and_eq_true, decide_eq_true_eq] at hhigh hlow
  have hcode : (Char.ofNat u).toNat = u := toNat_ofNat_of_lt (by omega)
  have hdenotes := Denotes.unit (c := Char.ofNat u) (by omega) rest
  rwa [hcode] at hdenotes

theorem denotes_pair {u v : Nat} (hhigh : isHighSurrogate u) (hlow : isLowSurrogate v)
    (rest : Denotes ps s) : Denotes (.unit u :: .unit v :: ps) (pairedChar u v :: s) := by
  simp only [isHighSurrogate, isLowSurrogate, Bool.and_eq_true, decide_eq_true_eq] at hhigh hlow
  have hcode : (pairedChar u v).toNat = 0x10000 + (u - 0xD800) * 0x400 + (v - 0xDC00) :=
    toNat_ofNat_of_lt (by omega)
  have hfirst : 0xD800 + ((pairedChar u v).toNat - 0x10000) / 0x400 = u := by omega
  have hsecond : 0xDC00 + ((pairedChar u v).toNat - 0x10000) % 0x400 = v := by omega
  have hdenotes := Denotes.pair (c := pairedChar u v) (by omega) rest
  rwa [hfirst, hsecond] at hdenotes

/-- A character that was read goes in front of the text behind it. -/
theorem exists_text_of_cons (h : (do return c :: (← text? ps)) = some s) :
    ∃ t, text? ps = some t ∧ s = c :: t := by
  obtain ⟨t, ht, heq⟩ := Option.bind_eq_some_iff.1 h
  cases heq
  exact ⟨t, ht, rfl⟩

/-- **What is read of 16-bit units is what they denote.** -/
theorem denotes_of_text? (hunits : ∀ u, .unit u ∈ ps → u < 0x10000) (h : text? ps = some s) :
    Denotes ps s := by
  fun_induction Piece.text? ps generalizing s with
  | case1 =>
    cases h
    exact .nil
  | case2 c ps ih =>
    obtain ⟨t, ht, rfl⟩ := exists_text_of_cons h
    exact .char (ih (fun u hu => hunits u (List.mem_cons_of_mem _ hu)) ht)
  | case3 u hhigh v ps hlow ih =>
    obtain ⟨t, ht, rfl⟩ := exists_text_of_cons h
    refine denotes_pair hhigh hlow (ih (fun u hu => hunits u ?_) ht)
    exact List.mem_cons_of_mem _ (List.mem_cons_of_mem _ hu)
  | case4 => cases h
  | case5 => cases h
  | case6 => cases h
  | case7 u ps hhigh hlow ih =>
    obtain ⟨t, ht, rfl⟩ := exists_text_of_cons h
    have hrest := ih (fun u hu => hunits u (List.mem_cons_of_mem _ hu)) ht
    exact denotes_unit hhigh hlow (hunits u List.mem_cons_self) hrest

/-! ## Strings of the grammar -/

/-- A hexadecimal digit has four bits. -/
theorem lt_of_hexValue? {c : Char} {n : Nat} (h : Tree.hexValue? c = some n) : n < 16 := by
  have hupto : ∀ {c d : Char}, c ≤ d → c.toNat ≤ d.toNat := fun h => UInt32.le_iff_toNat_le.1 h
  rw [Tree.hexValue?] at h
  split at h
  · rename_i hdigit
    have hvalue := Text.toNat_of_isDigit hdigit
    cases h
    rw [show '0'.toNat = 48 from rfl]
    omega
  split at h
  · rename_i hlower
    have hlast := hupto hlower.2
    rw [show 'f'.toNat = 102 from rfl] at hlast
    cases h
    rw [show 'a'.toNat = 97 from rfl]
    omega
  split at h
  · rename_i hupper
    have hlast := hupto hupper.2
    rw [show 'F'.toNat = 70 from rfl] at hlast
    cases h
    rw [show 'A'.toNat = 65 from rfl]
    omega
  · cases h

/-- Four of them are a 16-bit unit. -/
theorem lt_of_unit? {a b c d : Char} {u : Nat} (h : Tree.unit? a b c d = some u) :
    u < 0x10000 := by
  obtain ⟨x, hx, h⟩ := Option.bind_eq_some_iff.1 h
  obtain ⟨y, hy, h⟩ := Option.bind_eq_some_iff.1 h
  obtain ⟨z, hz, h⟩ := Option.bind_eq_some_iff.1 h
  obtain ⟨w, hw, h⟩ := Option.bind_eq_some_iff.1 h
  have hx := lt_of_hexValue? hx
  have hy := lt_of_hexValue? hy
  have hz := lt_of_hexValue? hz
  have hw := lt_of_hexValue? hw
  cases h
  omega

theorem lt_of_unit_mem {t : Text} (h : Tree.SpelledPieces ps t) :
    ∀ u, .unit u ∈ ps → u < 0x10000 := by
  induction h with
  | nil => rintro u ⟨⟩
  | cons hpiece _ ih =>
    intro u hu
    rcases List.mem_cons.1 hu with heq | hu
    · cases hpiece with
      | unit hvalue =>
        cases heq
        exact lt_of_unit? hvalue
      | plain | letter => cases heq
    · exact ih u hu

/-- **The text of a string is what its pieces denote.** -/
theorem text?_eq_some_iff {t : Text} (h : Tree.SpelledPieces ps t) :
    text? ps = some s ↔ Denotes ps s :=
  ⟨denotes_of_text? (lt_of_unit_mem h), Denotes.text?⟩

end Piece

end DocQuery
