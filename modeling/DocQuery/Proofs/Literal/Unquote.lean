import DocQuery.Operand
/-!
# Reading a literal

The reader of a literal goes up to the first double quote that no
backslash is in front of, and undoes the seven escapes on its way. It
reads back every text that was escaped (`inside?_escape`), whatever stands
behind the closing quote. A text that was put between quotes without
escaping reads as itself only if it has neither quote nor backslash
(`inside?_bare_iff`); where it has a quote, the literal ends there.
-/

namespace DocQuery

namespace Literal

/-- The character that a letter behind a backslash stands for, if the two
are an escape. -/
def unescape? (letter : Char) : Option Char := (escapes.find? (·.2 = letter)).map Prod.fst

/-- **What a literal holds**, from behind its opening quote, and the text
behind its closing quote. A backslash that begins no escape is refused. -/
def inside? : Text → Option (Text × Text)
  | [] => none
  | c :: rest =>
    if c = '"' then some ([], rest)
    else if c = '\\' then
      match rest with
      | [] => none
      | letter :: rest => do
        let c ← unescape? letter
        let (t, rest) ← inside? rest
        return (c :: t, rest)
    else do
      let (t, rest) ← inside? rest
      return (c :: t, rest)

/-- What a literal holds, and the text behind it. -/
def unquote? : Text → Option (Text × Text)
  | '"' :: rest => inside? rest
  | _ => none

/-! ## The steps of the reader -/

variable {c letter : Char} {s t rest : Text}

/-- The closing quote. -/
theorem inside?_quote : inside? ('"' :: rest) = some ([], rest) := by
  rw [inside?.eq_def]
  rfl

/-- An escape. -/
theorem inside?_slash (h : unescape? letter = some c) :
    inside? ('\\' :: letter :: rest) = (inside? rest).map fun (t, r) => (c :: t, r) := by
  rw [inside?, if_neg (by decide), if_pos rfl, h]
  cases inside? rest <;> rfl

/-- Any other character. -/
theorem inside?_plain (hquote : c ≠ '"') (hslash : c ≠ '\\') :
    inside? (c :: rest) = (inside? rest).map fun (t, r) => (c :: t, r) := by
  rw [inside?.eq_def]
  simp only [if_neg hquote, if_neg hslash]
  cases inside? rest <;> rfl

/-! ## Escaped texts -/

/-- A character is escaped by its letter, or stands for itself. -/
theorem escapeChar_cases (c : Char) :
    (∃ letter, (c, letter) ∈ escapes ∧ escapeChar c = ['\\', letter]) ∨
      ((∀ e ∈ escapes, c ≠ e.1) ∧ escapeChar c = [c]) := by
  rw [escapeChar]
  split
  · rename_i letter h
    obtain ⟨before, after, hsplit, -⟩ := List.lookup_eq_some_iff.1 h
    refine .inl ⟨letter, ?_, rfl⟩
    rw [hsplit]
    exact List.mem_append_right _ List.mem_cons_self
  · rename_i h
    refine .inr ⟨fun e he => ?_, rfl⟩
    simpa using List.lookup_eq_none_iff.1 h e he

/-- **What an escaped character is read as.** -/
theorem inside?_escapeChar (c : Char) (rest : Text) :
    inside? (escapeChar c ++ rest) = (inside? rest).map fun (t, r) => (c :: t, r) := by
  rcases escapeChar_cases c with ⟨letter, hmem, h⟩ | ⟨hplain, h⟩
  · have hundo : ∀ e ∈ escapes, unescape? e.2 = some e.1 := by decide
    rw [h]
    exact inside?_slash (hundo (c, letter) hmem)
  · rw [h]
    exact inside?_plain (hplain ('"', '"') (by decide)) (hplain ('\\', '\\') (by decide))

/-- **An escaped text reads back**, with any text behind the quote. -/
theorem inside?_escape (t rest : Text) : inside? (escape t ++ '"' :: rest) = some (t, rest) := by
  induction t with
  | nil => exact inside?_quote
  | cons c t ih =>
    have hsplit : escape (c :: t) = escapeChar c ++ escape t := List.flatMap_cons
    rw [hsplit, List.append_assoc, inside?_escapeChar, ih]
    rfl

/-- And so does a quoted text. -/
theorem unquote?_quote (t rest : Text) : unquote? (quote t ++ rest) = some (t, rest) := by
  have hsplit : quote t ++ rest = '"' :: (escape t ++ '"' :: rest) := by
    rw [quote, List.cons_append, List.append_assoc, List.singleton_append]
  rw [hsplit]
  exact inside?_escape t rest

/-! ## Texts that were not escaped -/

/-- Up to its first quote a text without backslash is read as it stands. -/
theorem inside?_bare (hquote : '"' ∉ t) (hslash : '\\' ∉ t) :
    inside? (t ++ '"' :: rest) = some (t, rest) := by
  induction t with
  | nil => exact inside?_quote
  | cons c t ih =>
    simp only [List.mem_cons, not_or] at hquote hslash
    rw [List.cons_append, inside?_plain (Ne.symm hquote.1) (Ne.symm hslash.1),
      ih hquote.2 hslash.2]
    rfl

/-- **What a reader can have met** at the beginning of what it has read:
the closing quote, an escape, or a character that stands for itself. -/
theorem inside?_cases (h : inside? (c :: s) = some (t, rest)) :
    (c = '"' ∧ t = [] ∧ rest = s) ∨
    (c = '\\' ∧ ∃ letter d u v, s = letter :: u ∧ unescape? letter = some d ∧
      inside? u = some (v, rest) ∧ t = d :: v) ∨
    (c ≠ '"' ∧ c ≠ '\\' ∧ ∃ v, inside? s = some (v, rest) ∧ t = c :: v) := by
  by_cases hquote : c = '"'
  · subst hquote
    rw [inside?_quote] at h
    cases h
    exact .inl ⟨rfl, rfl, rfl⟩
  by_cases hslash : c = '\\'
  · subst hslash
    cases s with
    | nil => cases h
    | cons letter u =>
      cases hletter : unescape? letter with
      | none =>
        rw [inside?, if_neg hquote, if_pos rfl, hletter] at h
        cases h
      | some d =>
        rw [inside?_slash hletter, Option.map_eq_some_iff] at h
        obtain ⟨⟨v, r⟩, hread, heq⟩ := h
        cases heq
        exact .inr (.inl ⟨rfl, letter, d, u, v, rfl, hletter, hread, rfl⟩)
  · rw [inside?_plain hquote hslash, Option.map_eq_some_iff] at h
    obtain ⟨⟨v, r⟩, hread, heq⟩ := h
    cases heq
    exact .inr (.inr ⟨hquote, hslash, v, hread, rfl⟩)

/-- What a literal holds and what is behind it is shorter than the text
that was read, by the closing quote at least. -/
theorem length_lt_of_inside? (h : inside? s = some (t, rest)) :
    t.length + rest.length < s.length := by
  -- an escape takes two characters, so the induction is on the length
  generalize hn : s.length = n
  induction n using Nat.strongRecOn generalizing s t with
  | ind n ih =>
    cases s with
    | nil => cases h
    | cons c s =>
      rw [List.length_cons] at hn
      rcases inside?_cases h with ⟨-, rfl, rfl⟩ | ⟨-, letter, d, u, v, rfl, -, hread, rfl⟩ |
        ⟨-, -, v, hread, rfl⟩
      · rw [List.length_nil]
        omega
      · rw [List.length_cons] at hn
        have hlt := ih u.length (by omega) hread rfl
        rw [List.length_cons]
        omega
      · have hlt := ih s.length (by omega) hread rfl
        rw [List.length_cons]
        omega

/-- Only the backslash itself is escaped to a backslash. -/
theorem unescape?_eq_slash (h : unescape? letter = some '\\') : letter = '\\' := by
  obtain ⟨e, hfind, hchar⟩ := Option.map_eq_some_iff.1 h
  have honly : ∀ e ∈ escapes, e.1 = '\\' → e.2 = '\\' := by decide
  have hletter : e.2 = letter := by simpa using List.find?_some hfind
  rw [← hletter]
  exact honly e (List.mem_of_find?_eq_some hfind) hchar

/-- **A text between quotes reads as itself if and only if it has neither
quote nor backslash.** -/
theorem inside?_bare_iff : inside? (t ++ '"' :: rest) = some (t, rest) ↔ '"' ∉ t ∧ '\\' ∉ t := by
  refine ⟨fun h => ?_, fun h => inside?_bare h.1 h.2⟩
  induction t with
  | nil => exact ⟨List.not_mem_nil, List.not_mem_nil⟩
  | cons c t ih =>
    rcases inside?_cases h with ⟨-, hnil, -⟩ | ⟨rfl, letter, d, u, v, hu, hletter, hread, hv⟩ |
      ⟨hquote, hslash, v, hread, hv⟩
    · cases hnil
    · -- two characters were read as one, so the rest came out too long
      obtain ⟨rfl, rfl⟩ := List.cons_eq_cons.1 hv
      obtain rfl := unescape?_eq_slash hletter
      have hlt := length_lt_of_inside? hread
      have hlength : (t ++ '"' :: rest).length = ('\\' :: u).length := congrArg List.length hu
      rw [List.length_append, List.length_cons, List.length_cons] at hlength
      omega
    · obtain ⟨-, rfl⟩ := List.cons_eq_cons.1 hv
      have hrest := ih hread
      simp only [List.mem_cons, not_or]
      exact ⟨⟨Ne.symm hquote, hrest.1⟩, ⟨Ne.symm hslash, hrest.2⟩⟩

end Literal

end DocQuery
