import DocQuery.Proofs.Json.Grammar
/-!
# The reader of trees is exact

The reader of JSON takes the texts of the grammar and no others
(`read?_eq_some_iff`), so a text has one tree at most. In one direction a
text of the grammar is read in as many steps as it has characters, by
recursion on its derivation. In the other, what is read in a number of
steps has a derivation, by induction on the steps.
-/

namespace DocQuery

namespace Tree

open Numeral (Ends ends_cons)

variable {c l : Char} {t rest : Text} {steps : Nat}

/-! ## Strings -/

/-- The reader knows the letters of the grammar. -/
theorem unescape?_eq_some_iff : unescape? l = some c ↔ (l, c) ∈ letters := by
  constructor
  · intro h
    unfold unescape? at h
    split at h
    · rename_i hself
      cases h
      rcases hself with rfl | rfl | rfl <;> decide
    · -- one case for each letter that stands for another character
      repeat' split at h
      all_goals cases h
      all_goals subst_vars
      all_goals decide
  · intro h
    have hall : ∀ p ∈ letters, unescape? p.1 = some p.2 := by decide
    exact hall (l, c) h

/-- The closing quote. -/
theorem pieces?_quote : pieces? ('"' :: rest) = some ([], rest) := by
  rw [pieces?.eq_def]
  rfl

/-- **A part of a string is read as itself.** -/
theorem pieces?_piece {p : Piece} {s : Text} (h : SpelledPiece p s) :
    pieces? (s ++ rest) = (pieces? rest).map fun (ps, r) => (p :: ps, r) := by
  cases h with
  | plain hquote hslash hcontrol =>
    rw [List.singleton_append, pieces?.eq_def]
    simp only [if_neg hquote, if_neg hslash, if_neg (Nat.not_lt.2 hcontrol)]
    cases pieces? rest <;> rfl
  | letter hletter =>
    have hread := unescape?_eq_some_iff.2 hletter
    rename_i l c
    have hunit : l ≠ 'u' := by
      rintro rfl
      cases hread
    rw [List.cons_append, List.singleton_append, pieces?.eq_def]
    simp only [if_neg hunit, hread]
    cases pieces? rest <;> rfl
  | unit hvalue =>
    rw [pieces?.eq_def]
    simp only [List.cons_append, List.nil_append, if_neg (show ¬ '\\' = '"' by decide), if_true,
      hvalue]
    cases pieces? rest <;> rfl

/-- **A string is read up to its closing quote.** -/
theorem pieces?_spelled {ps : List Piece} {s : Text} (h : SpelledPieces ps s) (rest : Text) :
    pieces? (s ++ '"' :: rest) = some (ps, rest) := by
  induction h with
  | nil => exact pieces?_quote
  | cons hpiece _ ih =>
    rw [List.append_assoc, pieces?_piece hpiece, ih]
    rfl

/-- A part that was read goes in front of the parts behind it. -/
theorem SpelledPiece.cons_of_read {p : Piece} {ps : List Piece} {s t : Text}
    (hpiece : SpelledPiece p s)
    (htail : ∀ {rest : Text} {ps : List Piece}, pieces? t = some (ps, rest) →
      ∃ u, SpelledPieces ps u ∧ t = u ++ '"' :: rest)
    (h : (do let (ps, rest) ← pieces? t; return (p :: ps, rest)) = some (ps, rest)) :
    ∃ u, SpelledPieces ps u ∧ s ++ t = u ++ '"' :: rest := by
  obtain ⟨⟨ps, rest⟩, hread, heq⟩ := Option.bind_eq_some_iff.1 h
  cases heq
  obtain ⟨u, hspelled, rfl⟩ := htail hread
  exact ⟨s ++ u, .cons hpiece hspelled, (List.append_assoc _ _ _).symm⟩

/-- **What is read as a string is one.** -/
theorem spelled_of_pieces? {ps : List Piece} (h : pieces? t = some (ps, rest)) :
    ∃ s, SpelledPieces ps s ∧ t = s ++ '"' :: rest := by
  fun_induction pieces? t generalizing ps rest with
  | case1 => cases h
  | case2 =>
    cases h
    exact ⟨[], .nil, rfl⟩
  | case3 => cases h
  | case4 a b c d t _ ih =>
    obtain ⟨u, hunit, h⟩ := Option.bind_eq_some_iff.1 h
    exact (SpelledPiece.unit hunit).cons_of_read ih h
  | case5 => cases h
  | case6 l t _ _ ih =>
    obtain ⟨c, hletter, h⟩ := Option.bind_eq_some_iff.1 h
    exact (SpelledPiece.letter (unescape?_eq_some_iff.1 hletter)).cons_of_read ih h
  | case7 => cases h
  | case8 c t hquote hslash hcontrol ih =>
    exact (SpelledPiece.plain hquote hslash (Nat.not_lt.1 hcontrol)).cons_of_read ih h

/-! ## What the grammar has is read -/

/-- A value is read from its first token on, and so are elements and
members. -/
theorem value?_skipGaps : value? steps (skipGaps t) = value? steps t := by
  cases steps with
  | zero => rfl
  | succ steps => rw [value?, value?, skipGaps_skipGaps]

theorem items?_skipGaps : items? steps (skipGaps t) = items? steps t := by
  cases steps with
  | zero => rfl
  | succ steps => rw [items?, items?, value?_skipGaps]

theorem members?_skipGaps : members? steps (skipGaps t) = members? steps t := by
  cases steps with
  | zero => rfl
  | succ steps => rw [members?, members?, skipGaps_skipGaps]

/-- A string is read by its parts. -/
theorem value?_string {ps : List Piece} (h : pieces? t = some (ps, rest)) :
    value? (steps + 1) ('"' :: t) = some (.str ps, rest) := by
  change (pieces? t).bind _ = _
  rw [h]
  rfl

/-- A numeral is read as a number. -/
theorem value?_numeral {n : Numeral} {s : Text} (h : n.Spelled s) (hrest : Ends rest) :
    value? (steps + 1) (s ++ rest) = some (.num n, rest) := by
  have hread := Numeral.numeral?_spelled h hrest
  obtain ⟨c, t, htext, hc⟩ := exists_head_numeral h
  have hne : ∀ d, leads d = false → c ≠ d := fun d => ne_of_leads hc
  rw [htext, List.cons_append] at hread ⊢
  rw [value?, skipGaps_cons (isGap_of_leads hc)]
  simp only [if_neg (hne '"' rfl), if_neg (hne '[' rfl), if_neg (hne '\x7b' rfl),
    if_neg (hne 'n' rfl), if_neg (hne 't' rfl), if_neg (hne 'f' rfl), hread]
  rfl

/-- An empty array, and one with elements. -/
theorem value?_emptyArray (h : skipGaps t = ']' :: rest) :
    value? (steps + 1) ('[' :: t) = some (.arr [], rest) := by
  rw [value?, skipGaps_cons rfl]
  simp only [h]
  rfl

theorem value?_array {s : Text} (hhead : skipGaps t = c :: s) (hclose : c ≠ ']') :
    value? (steps + 1) ('[' :: t) = (items? steps t).map fun (vs, rest) => (.arr vs, rest) := by
  rw [← items?_skipGaps, hhead, value?, skipGaps_cons rfl]
  simp only [hhead]
  rw [if_neg (by decide), if_pos trivial]
  split
  · rename_i heq
    exact absurd (List.cons_eq_cons.1 heq).1 hclose
  · cases items? steps (c :: s) <;> rfl

/-- An empty object, and one with members. -/
theorem value?_emptyObject (h : skipGaps t = '\x7d' :: rest) :
    value? (steps + 1) ('\x7b' :: t) = some (.obj [], rest) := by
  rw [value?, skipGaps_cons rfl]
  simp only [h]
  rfl

theorem value?_object {s : Text} (hhead : skipGaps t = '"' :: s) :
    value? (steps + 1) ('\x7b' :: t) = (members? steps t).map fun (ms, rest) => (.obj ms, rest) := by
  rw [← members?_skipGaps, hhead, value?, skipGaps_cons rfl]
  simp only [hhead]
  change (members? steps ('"' :: s)).bind _ = _
  cases members? steps ('"' :: s) <;> rfl

/-- The last element of an array, and one with others behind it. -/
theorem items?_last {v : Tree} {s : Text} (hv : value? steps t = some (v, s))
    (hs : skipGaps s = ']' :: rest) : items? (steps + 1) t = some ([v], rest) := by
  rw [items?, hv]
  simp only [Option.bind_eq_bind, Option.bind_some, hs]
  rfl

theorem items?_cons {v : Tree} {s u : Text} (hv : value? steps t = some (v, s))
    (hs : skipGaps s = ',' :: u) :
    items? (steps + 1) t = (items? steps u).map fun (vs, rest) => (v :: vs, rest) := by
  rw [items?, hv]
  simp only [Option.bind_eq_bind, Option.bind_some, hs]
  cases items? steps u <;> rfl

/-- The last member of an object, and one with others behind it. -/
theorem members?_last {k : List Piece} {v : Tree} {a b s u : Text} (ht : skipGaps t = '"' :: a)
    (hk : pieces? a = some (k, b)) (hb : skipGaps b = ':' :: s)
    (hv : value? steps s = some (v, u)) (hu : skipGaps u = '\x7d' :: rest) :
    members? (steps + 1) t = some ([(k, v)], rest) := by
  rw [members?]
  simp only [Option.bind_eq_bind, Option.bind_some, ht, hk, hb, hv, hu]
  rfl

theorem members?_cons {k : List Piece} {v : Tree} {a b s u w : Text} (ht : skipGaps t = '"' :: a)
    (hk : pieces? a = some (k, b)) (hb : skipGaps b = ':' :: s)
    (hv : value? steps s = some (v, u)) (hu : skipGaps u = ',' :: w) :
    members? (steps + 1) t = (members? steps w).map fun (ms, rest) => ((k, v) :: ms, rest) := by
  rw [members?]
  simp only [Option.bind_eq_bind, Option.bind_some, ht, hk, hb, hv, hu]
  cases members? steps w <;> rfl

/-- A member from its key on, with the text behind it. -/
theorem skipGaps_member {front key back s : Text} (hfront : IsGaps front) (rest : Text) :
    skipGaps (front ++ '"' :: (key ++ '"' :: (back ++ ':' :: s)) ++ rest) =
      '"' :: (key ++ '"' :: (back ++ ':' :: (s ++ rest))) := by
  rw [List.append_assoc, skipGaps_append hfront, List.cons_append, skipGaps_cons rfl,
    List.append_assoc, List.cons_append, List.append_assoc, List.cons_append]

/-! The readers call each other, and each call costs a step. An array and an
object have two brackets more than what is inside, which pays for the call
and for the one step that their contents need beyond their length. -/

mutual

/-- **A value of the grammar is read**, in as many steps as it has
characters. -/
theorem value?_spelled : ∀ {v : Tree} {s : Text}, Spelled v s → ∀ {steps : Nat} {rest : Text},
    Ends rest → s.length ≤ steps → value? steps (s ++ rest) = some (v, rest)
  | _, _, .null, _ + 1, _, _, _ => rfl
  | _, _, .yes, _ + 1, _, _, _ => rfl
  | _, _, .no, _ + 1, _, _, _ => rfl
  | _, _, .num hnumeral, steps, rest, hrest, hsteps => by
    obtain ⟨c, t, rfl, -⟩ := exists_head_numeral hnumeral
    obtain ⟨inner, rfl⟩ := Nat.exists_eq_add_of_le' (Nat.le_trans (Nat.le_add_left 1 _) hsteps)
    exact value?_numeral hnumeral hrest
  | _, _, .str hps, steps + 1, rest, _, _ => by
    rw [List.cons_append, List.append_assoc]
    exact value?_string (pieces?_spelled hps rest)
  | _, _, .emptyArray hgap, steps + 1, rest, _, _ => by
    rw [List.cons_append, List.append_assoc]
    exact value?_emptyArray (skipGaps_append hgap)
  | _, _, .array (s := s) hvs, steps + 1, rest, _, hsteps => by
    rw [List.length_cons, List.length_append, List.length_singleton] at hsteps
    have hread := items?_spelled hvs (show s.length < steps by omega) rest
    obtain ⟨c, t, hhead, hclose⟩ := hvs.exists_head (']' :: rest)
    rw [List.cons_append, List.append_assoc]
    exact (value?_array hhead hclose).trans (congrArg (Option.map _) hread)
  | _, _, .emptyObject hgap, steps + 1, rest, _, _ => by
    rw [List.cons_append, List.append_assoc]
    exact value?_emptyObject (skipGaps_append hgap)
  | _, _, .object (s := s) hms, steps + 1, rest, _, hsteps => by
    rw [List.length_cons, List.length_append, List.length_singleton] at hsteps
    have hread := members?_spelled hms (show s.length < steps by omega) rest
    obtain ⟨t, hhead⟩ := hms.exists_head ('\x7d' :: rest)
    rw [List.cons_append, List.append_assoc]
    exact (value?_object hhead).trans (congrArg (Option.map _) hread)

/-- A value between gaps is read with the gaps in front of it, and those
behind it are left. -/
theorem value?_spelledText : ∀ {v : Tree} {s : Text}, SpelledText v s →
    ∀ {steps : Nat} {rest : Text}, Ends rest → s.length ≤ steps →
      ∃ u, value? steps (s ++ rest) = some (v, u) ∧ skipGaps u = skipGaps rest
  | _, _, .mk hfront hvalue hback, steps, rest, hrest, hsteps => by
    rw [List.length_append, List.length_append] at hsteps
    -- the gaps behind the value are what ends it if it is a numeral
    have hread := value?_spelled hvalue (ends_append hback hrest)
      (Nat.le_trans (Nat.le_trans (Nat.le_add_right _ _) (Nat.le_add_left _ _)) hsteps)
    refine ⟨_, ?_, skipGaps_append hback⟩
    rw [← value?_skipGaps, List.append_assoc, List.append_assoc, skipGaps_append hfront,
      value?_skipGaps, hread]

/-- **Elements are read** up to the closing bracket. -/
theorem items?_spelled : ∀ {vs : List Tree} {s : Text}, SpelledItems vs s →
    ∀ {steps : Nat}, s.length < steps → ∀ rest : Text,
      items? steps (s ++ ']' :: rest) = some (vs, rest)
  | _, _, .last hvalue, steps + 1, hsteps, rest => by
    have hrest : Ends (']' :: rest) := ends_cons rfl
    obtain ⟨u, hread, hu⟩ := value?_spelledText hvalue hrest (Nat.le_of_lt_succ hsteps)
    exact items?_last hread hu
  | _, _, .cons (s := s) (t := t) hvalue hvs, steps + 1, hsteps, rest => by
    rw [List.length_append, List.length_cons] at hsteps
    have hrest : Ends (',' :: (t ++ ']' :: rest)) := ends_cons rfl
    have htail := items?_spelled hvs (show t.length < steps by omega) rest
    obtain ⟨u, hread, hu⟩ := value?_spelledText hvalue hrest (show s.length ≤ steps by omega)
    rw [List.append_assoc, List.cons_append, items?_cons hread hu, htail]
    rfl

/-- **Members are read** up to the closing brace. -/
theorem members?_spelled : ∀ {ms : List (List Piece × Tree)} {s : Text}, SpelledMembers ms s →
    ∀ {steps : Nat}, s.length < steps → ∀ rest : Text,
      members? steps (s ++ '\x7d' :: rest) = some (ms, rest)
  | _, _, .last (.mk (s := s) hfront hkey hback hvalue), steps + 1, hsteps, rest => by
    simp only [List.length_append, List.length_cons] at hsteps
    have hrest : Ends ('\x7d' :: rest) := ends_cons rfl
    obtain ⟨u, hread, hu⟩ := value?_spelledText hvalue hrest (show s.length ≤ steps by omega)
    exact members?_last (skipGaps_member hfront _) (pieces?_spelled hkey _) (skipGaps_append hback)
      hread hu
  | _, _, .cons (t := t) (.mk (s := s) hfront hkey hback hvalue) hms, steps + 1, hsteps, rest => by
    simp only [List.length_append, List.length_cons] at hsteps
    have hrest : Ends (',' :: (t ++ '\x7d' :: rest)) := ends_cons rfl
    have htail := members?_spelled hms (show t.length < steps by omega) rest
    obtain ⟨u, hread, hu⟩ := value?_spelledText hvalue hrest (show s.length ≤ steps by omega)
    rw [List.append_assoc _ _ ('\x7d' :: rest), List.cons_append,
      members?_cons (skipGaps_member hfront _) (pieces?_spelled hkey _) (skipGaps_append hback)
        hread hu, htail]
    rfl

end

/-! ## What is read the grammar has -/

/-- **What the readers take in a number of steps the grammar has.** -/
structure Sound (steps : Nat) : Prop where
  value : ∀ {t rest : Text} {v : Tree}, value? steps t = some (v, rest) →
    ∃ front s, IsGaps front ∧ Spelled v s ∧ t = front ++ (s ++ rest)
  items : ∀ {t rest : Text} {vs : List Tree}, items? steps t = some (vs, rest) →
    ∃ s, SpelledItems vs s ∧ t = s ++ ']' :: rest
  members : ∀ {t rest : Text} {ms : List (List Piece × Tree)}, members? steps t = some (ms, rest) →
    ∃ s, SpelledMembers ms s ∧ t = s ++ '\x7d' :: rest

/-- A word that a text begins with is taken from it. -/
theorem after?_eq_some_iff {word : Text} : after? word t = some rest ↔ t = word ++ rest := by
  induction word generalizing t with
  | nil =>
    rw [after?, Option.some.injEq]
    rfl
  | cons w word ih =>
    cases t with
    | nil => exact ⟨by rintro ⟨⟩, by rintro ⟨⟩⟩
    | cons c t =>
      rw [after?, List.cons_append, List.cons_eq_cons, Option.ite_none_right_eq_some, ih]
      exact and_congr_left' eq_comm

/-- A fixed word that was read is spelled in full. -/
theorem spelled_of_after? {v w : Tree} {word u : Text} (hword : Spelled v (c :: word))
    (h : (do return (v, ← after? word u)) = some (w, rest)) :
    ∃ s, Spelled w s ∧ c :: u = s ++ rest := by
  obtain ⟨r, hafter, heq⟩ := Option.bind_eq_some_iff.1 h
  cases heq
  rw [after?_eq_some_iff.1 hafter]
  exact ⟨_, hword, rfl⟩

/-- What is read behind an opening bracket is the rest of an array. -/
theorem Sound.array (ih : Sound steps) {v : Tree} {u : Text}
    (h : (match skipGaps u with
      | ']' :: rest => some (.arr [], rest)
      | rest => do
        let (vs, rest) ← items? steps rest
        return (.arr vs, rest)) = some (v, rest)) :
    ∃ s, Spelled v s ∧ '[' :: u = s ++ rest := by
  obtain ⟨gap, hgap, hu⟩ := exists_gaps u
  split at h
  · rename_i hclose
    cases h
    rw [hclose] at hu
    exact ⟨_, .emptyArray hgap, by simp [hu]⟩
  · obtain ⟨⟨vs, r⟩, hread, heq⟩ := Option.bind_eq_some_iff.1 h
    cases heq
    obtain ⟨s, hvs, hs⟩ := ih.items hread
    rw [hs] at hu
    exact ⟨_, .array (hvs.gaps_append hgap), by simp [hu]⟩

/-- And behind an opening brace that of an object. -/
theorem Sound.object (ih : Sound steps) {v : Tree} {u : Text}
    (h : (match skipGaps u with
      | '\x7d' :: rest => some (.obj [], rest)
      | rest => do
        let (ms, rest) ← members? steps rest
        return (.obj ms, rest)) = some (v, rest)) :
    ∃ s, Spelled v s ∧ '\x7b' :: u = s ++ rest := by
  obtain ⟨gap, hgap, hu⟩ := exists_gaps u
  split at h
  · rename_i hclose
    cases h
    rw [hclose] at hu
    exact ⟨_, .emptyObject hgap, by simp [hu]⟩
  · obtain ⟨⟨ms, r⟩, hread, heq⟩ := Option.bind_eq_some_iff.1 h
    cases heq
    obtain ⟨s, hms, hs⟩ := ih.members hread
    rw [hs] at hu
    exact ⟨_, .object (hms.gaps_append hgap), by simp [hu]⟩

theorem Sound.value_succ (ih : Sound steps) {v : Tree} (h : value? (steps + 1) t = some (v, rest)) :
    ∃ front s, IsGaps front ∧ Spelled v s ∧ t = front ++ (s ++ rest) := by
  obtain ⟨front, hfront, ht⟩ := exists_gaps t
  suffices hspelled : ∃ s, Spelled v s ∧ skipGaps t = s ++ rest by
    obtain ⟨s, hvalue, hs⟩ := hspelled
    exact ⟨front, s, hfront, hvalue, hs ▸ ht⟩
  rw [value?] at h
  generalize skipGaps t = u at h
  split at h
  · cases h
  rename_i c u
  -- the first character decides: quote, bracket, brace, the letter of a word, or a numeral
  split at h
  · rename_i hquote
    obtain ⟨⟨ps, r⟩, hread, heq⟩ := Option.bind_eq_some_iff.1 h
    cases heq
    obtain ⟨s, hps, rfl⟩ := spelled_of_pieces? hread
    exact ⟨_, .str hps, by simp [hquote]⟩
  split at h
  · rename_i hbracket
    exact hbracket ▸ ih.array h
  split at h
  · rename_i hbrace
    exact hbrace ▸ ih.object h
  split at h
  · rename_i hn
    exact hn ▸ spelled_of_after? .null h
  split at h
  · rename_i ht
    exact ht ▸ spelled_of_after? .yes h
  split at h
  · rename_i hf
    exact hf ▸ spelled_of_after? .no h
  · obtain ⟨⟨n, r⟩, hread, heq⟩ := Option.bind_eq_some_iff.1 h
    cases heq
    obtain ⟨s, hnumeral, hs⟩ := Numeral.spelled_of_numeral? hread
    exact ⟨s, .num hnumeral, hs⟩

theorem Sound.items_succ (ih : Sound steps) {vs : List Tree}
    (h : items? (steps + 1) t = some (vs, rest)) :
    ∃ s, SpelledItems vs s ∧ t = s ++ ']' :: rest := by
  rw [items?] at h
  obtain ⟨⟨v, u⟩, hread, hnext⟩ := Option.bind_eq_some_iff.1 h
  obtain ⟨front, s, hfront, hvalue, rfl⟩ := ih.value hread
  obtain ⟨back, hback, hu⟩ := exists_gaps u
  have htext := SpelledText.mk hfront hvalue hback
  dsimp only at hnext
  split at hnext
  · rename_i w hcomma
    obtain ⟨⟨vs, r⟩, hread, heq⟩ := Option.bind_eq_some_iff.1 hnext
    cases heq
    obtain ⟨s, hvs, rfl⟩ := ih.items hread
    rw [hcomma] at hu
    exact ⟨_, .cons htext hvs, by simp [hu]⟩
  · rename_i r hclose
    cases hnext
    rw [hclose] at hu
    exact ⟨_, .last htext, by simp [hu]⟩
  · cases hnext

theorem Sound.members_succ (ih : Sound steps) {ms : List (List Piece × Tree)}
    (h : members? (steps + 1) t = some (ms, rest)) :
    ∃ s, SpelledMembers ms s ∧ t = s ++ '\x7d' :: rest := by
  obtain ⟨front, hfront, ht⟩ := exists_gaps t
  rw [members?] at h
  split at h
  · rename_i a hquote
    obtain ⟨⟨k, b⟩, hpieces, hnext⟩ := Option.bind_eq_some_iff.1 h
    obtain ⟨key, hkey, rfl⟩ := spelled_of_pieces? hpieces
    obtain ⟨middle, hmiddle, hb⟩ := exists_gaps b
    dsimp only at hnext
    split at hnext
    · rename_i c hcolon
      obtain ⟨⟨v, u⟩, hread, hend⟩ := Option.bind_eq_some_iff.1 hnext
      obtain ⟨gap, s, hgap, hvalue, rfl⟩ := ih.value hread
      obtain ⟨back, hback, hu⟩ := exists_gaps u
      have hmember := SpelledMember.mk hfront hkey hmiddle (.mk hgap hvalue hback)
      rw [hquote] at ht
      rw [hcolon] at hb
      dsimp only at hend
      split at hend
      · rename_i w hcomma
        obtain ⟨⟨ms, r⟩, hread, heq⟩ := Option.bind_eq_some_iff.1 hend
        cases heq
        obtain ⟨s, hms, rfl⟩ := ih.members hread
        rw [hcomma] at hu
        exact ⟨_, .cons hmember hms, by simp [ht, hb, hu]⟩
      · rename_i r hclose
        cases hend
        rw [hclose] at hu
        exact ⟨_, .last hmember, by simp [ht, hb, hu]⟩
      · cases hend
    · cases hnext
  · cases h

/-- **The readers are sound**, whatever number of steps they have. -/
theorem sound (steps : Nat) : Sound steps := by
  induction steps with
  | zero => exact ⟨by rintro _ _ _ ⟨⟩, by rintro _ _ _ ⟨⟩, by rintro _ _ _ ⟨⟩⟩
  | succ steps ih => exact ⟨ih.value_succ, ih.items_succ, ih.members_succ⟩

/-! ## JSON texts -/

/-- **The reader of trees takes the texts of the grammar**, and no
others. -/
theorem read?_eq_some_iff {v : Tree} : read? t = some v ↔ SpelledText v t := by
  constructor
  · intro h
    rw [read?] at h
    obtain ⟨⟨v, rest⟩, hread, hend⟩ := Option.bind_eq_some_iff.1 h
    obtain ⟨front, s, hfront, hvalue, rfl⟩ := (sound _).value hread
    obtain ⟨hempty, heq⟩ := Option.ite_none_right_eq_some.1 hend
    cases heq
    obtain ⟨back, hback, hrest⟩ := exists_gaps rest
    rw [List.isEmpty_iff.1 hempty, List.append_nil] at hrest
    exact .mk hfront hvalue (hrest ▸ hback)
  · intro h
    have hrest : Ends [] := rfl
    obtain ⟨u, hread, hu⟩ := value?_spelledText h hrest (show t.length ≤ 2 * t.length + 2 by omega)
    rw [List.append_nil] at hread
    rw [read?, hread]
    change (if (skipGaps u).isEmpty then some v else none) = some v
    rw [hu]
    rfl

end Tree

end DocQuery
