import DocQuery.Proofs.Numeral.Grammar
/-!
# The grammar of JSON

The grammar of RFC 8259 as relations between trees and texts, one
constructor for each of its rules: gaps, strings, values, the elements of
arrays and the members of objects. Nesting has no limit. The rules are
followed by what texts of each kind begin with, which is all that a reader
needs to know to choose among them.
-/

namespace DocQuery

namespace Tree

open Numeral (Ends ends_cons)

/-! ## The rules -/

/-- Gaps, or nothing. -/
def IsGaps (t : Text) : Prop := t.all isGap

/-- The letters that JSON has behind a backslash, each with the character
it stands for. -/
def letters : List (Char × Char) :=
  [('"', '"'), ('\\', '\\'), ('/', '/'), ('b', '\x08'), ('f', '\x0c'), ('n', '\n'), ('r', '\r'),
    ('t', '\t')]

/-- The spellings of a part of a string. -/
inductive SpelledPiece : Piece → Text → Prop
  /-- A character that stands for itself: no quote, no backslash and no
  control character. -/
  | plain {c : Char} (quote : c ≠ '"') (slash : c ≠ '\\') (control : 0x20 ≤ c.toNat) :
      SpelledPiece (.char c) [c]
  /-- A backslash and a letter. -/
  | letter {l c : Char} (isLetter : (l, c) ∈ letters) : SpelledPiece (.char c) ['\\', l]
  /-- The code of a UTF-16 unit. -/
  | unit {a b c d : Char} {u : Nat} (value : unit? a b c d = some u) :
      SpelledPiece (.unit u) ['\\', 'u', a, b, c, d]

/-- The spellings of the inside of a string. -/
inductive SpelledPieces : List Piece → Text → Prop
  | nil : SpelledPieces [] []
  | cons {p : Piece} {ps : List Piece} {s t : Text} (head : SpelledPiece p s)
      (tail : SpelledPieces ps t) : SpelledPieces (p :: ps) (s ++ t)

mutual

/-- **The spellings of a tree.** -/
inductive Spelled : Tree → Text → Prop
  | null : Spelled .null "null".toList
  | yes : Spelled (.bool true) "true".toList
  | no : Spelled (.bool false) "false".toList
  | num {n : Numeral} {s : Text} (isNumeral : n.Spelled s) : Spelled (.num n) s
  | str {ps : List Piece} {s : Text} (arePieces : SpelledPieces ps s) :
      Spelled (.str ps) ('"' :: (s ++ ['"']))
  | emptyArray {gap : Text} (isGaps : IsGaps gap) : Spelled (.arr []) ('[' :: (gap ++ [']']))
  | array {vs : List Tree} {s : Text} (areItems : SpelledItems vs s) :
      Spelled (.arr vs) ('[' :: (s ++ [']']))
  | emptyObject {gap : Text} (isGaps : IsGaps gap) :
      Spelled (.obj []) ('\x7b' :: (gap ++ ['\x7d']))
  | object {ms : List (List Piece × Tree)} {s : Text} (areMembers : SpelledMembers ms s) :
      Spelled (.obj ms) ('\x7b' :: (s ++ ['\x7d']))

/-- **The spellings of a JSON text**: a value between gaps. -/
inductive SpelledText : Tree → Text → Prop
  | mk {v : Tree} {front s back : Text} (isFront : IsGaps front) (isValue : Spelled v s)
      (isBack : IsGaps back) : SpelledText v (front ++ (s ++ back))

/-- The spellings of the elements of an array, one at least. -/
inductive SpelledItems : List Tree → Text → Prop
  | last {v : Tree} {s : Text} (isValue : SpelledText v s) : SpelledItems [v] s
  | cons {v : Tree} {vs : List Tree} {s t : Text} (isValue : SpelledText v s)
      (areItems : SpelledItems vs t) : SpelledItems (v :: vs) (s ++ ',' :: t)

/-- The spellings of a member of an object. -/
inductive SpelledMember : List Piece × Tree → Text → Prop
  | mk {ps : List Piece} {v : Tree} {front key back s : Text} (isFront : IsGaps front)
      (isKey : SpelledPieces ps key) (isBack : IsGaps back) (isValue : SpelledText v s) :
      SpelledMember (ps, v) (front ++ '"' :: (key ++ '"' :: (back ++ ':' :: s)))

/-- The spellings of the members of an object, one at least. -/
inductive SpelledMembers : List (List Piece × Tree) → Text → Prop
  | last {m : List Piece × Tree} {s : Text} (isMember : SpelledMember m s) : SpelledMembers [m] s
  | cons {m : List Piece × Tree} {ms : List (List Piece × Tree)} {s t : Text}
      (isMember : SpelledMember m s) (areMembers : SpelledMembers ms t) :
      SpelledMembers (m :: ms) (s ++ ',' :: t)

end

variable {c : Char} {t rest : Text}

/-! ## Gaps -/

theorem isGaps_append {front back : Text} (hfront : IsGaps front) (hback : IsGaps back) :
    IsGaps (front ++ back) := by
  rw [IsGaps, List.all_append, hfront, hback, Bool.true_and]

/-- Gaps are skipped only where there are gaps. -/
theorem skipGaps_cons (h : isGap c = false) : skipGaps (c :: t) = c :: t :=
  List.dropWhile_cons_of_neg (by simp [h])

theorem skipGaps_append {front : Text} (h : IsGaps front) : skipGaps (front ++ t) = skipGaps t :=
  List.dropWhile_append_of_pos (List.all_eq_true.1 h)

/-- What was skipped are gaps. -/
theorem exists_gaps (t : Text) : ∃ front : Text, IsGaps front ∧ t = front ++ skipGaps t :=
  ⟨t.takeWhile isGap, List.all_takeWhile, List.takeWhile_append_dropWhile.symm⟩

/-- There are none left to skip. -/
theorem skipGaps_skipGaps (t : Text) : skipGaps (skipGaps t) = skipGaps t := by
  obtain ⟨front, hfront, ht⟩ := exists_gaps t
  have hskip := congrArg skipGaps ht
  rw [skipGaps_append hfront] at hskip
  exact hskip.symm

/-- Gaps end a numeral. -/
theorem ends_append {back : Text} (hback : IsGaps back) (hrest : Ends rest) :
    Ends (back ++ rest) := by
  cases back with
  | nil => exact hrest
  | cons c back =>
    have hgap : isGap c := List.all_eq_true.1 hback c List.mem_cons_self
    simp only [isGap, Bool.or_eq_true, decide_eq_true_eq] at hgap
    rcases hgap with ((rfl | rfl) | rfl) | rfl
    · exact ends_cons rfl
    · exact ends_cons rfl
    · exact ends_cons rfl
    · exact ends_cons rfl

/-- Gaps in front of a text are part of its spelling. -/
theorem SpelledText.gaps_append {v : Tree} {gap s : Text} (hgap : IsGaps gap)
    (h : SpelledText v s) : SpelledText v (gap ++ s) := by
  obtain ⟨hfront, hvalue, hback⟩ := h
  rw [← List.append_assoc]
  exact .mk (isGaps_append hgap hfront) hvalue hback

/-- A value alone is a JSON text. -/
theorem Spelled.text {v : Tree} {s : Text} (h : Spelled v s) : SpelledText v s := by
  have htext := SpelledText.mk (show IsGaps [] from rfl) h (show IsGaps [] from rfl)
  rwa [List.nil_append, List.append_nil] at htext

theorem SpelledItems.gaps_append {vs : List Tree} {gap s : Text} (hgap : IsGaps gap)
    (h : SpelledItems vs s) : SpelledItems vs (gap ++ s) := by
  cases h with
  | last hvalue => exact .last (hvalue.gaps_append hgap)
  | cons hvalue hvs =>
    rw [← List.append_assoc]
    exact .cons (hvalue.gaps_append hgap) hvs

theorem SpelledMembers.gaps_append {ms : List (List Piece × Tree)} {gap s : Text}
    (hgap : IsGaps gap) (h : SpelledMembers ms s) : SpelledMembers ms (gap ++ s) := by
  have hmember : ∀ {m : List Piece × Tree} {s : Text}, SpelledMember m s →
      SpelledMember m (gap ++ s) := by
    rintro m s ⟨hfront, hkey, hback, hvalue⟩
    rw [← List.append_assoc]
    exact .mk (isGaps_append hgap hfront) hkey hback hvalue
  cases h with
  | last hm => exact .last (hmember hm)
  | cons hm hms =>
    rw [← List.append_assoc]
    exact .cons (hmember hm) hms

/-! ## What texts begin with -/

/-- Whether a character can be the first of a numeral. -/
def leads (c : Char) : Bool := c.isDigit || c = '-'

theorem ne_of_leads {d : Char} (hc : leads c) (hd : leads d = false) : c ≠ d :=
  Text.ne_of_holds hc hd

theorem isGap_of_leads (hc : leads c) : isGap c = false := by
  simp [isGap, ne_of_leads hc (d := ' ') rfl, ne_of_leads hc (d := '\t') rfl,
    ne_of_leads hc (d := '\n') rfl, ne_of_leads hc (d := '\r') rfl]

/-- A numeral begins with such a character. -/
theorem exists_head_numeral {n : Numeral} {s : Text} (h : n.Spelled s) :
    ∃ c t, s = c :: t ∧ leads c := by
  obtain ⟨hreadable, -⟩ := h
  obtain ⟨d, ds, hwhole, hdigit⟩ := hreadable.isRun.exists_head
  rw [hwhole]
  cases n.negative with
  | true => exact ⟨_, _, rfl, rfl⟩
  | false => exact ⟨_, _, rfl, by rw [leads, hdigit, Bool.true_or]⟩

/-- A value begins with no gap and with no closing bracket. -/
theorem Spelled.exists_head {v : Tree} {s : Text} (h : Spelled v s) :
    ∃ c t, s = c :: t ∧ isGap c = false ∧ c ≠ ']' := by
  cases h with
  | num hnumeral =>
    obtain ⟨c, t, hhead, hc⟩ := exists_head_numeral hnumeral
    exact ⟨c, t, hhead, isGap_of_leads hc, ne_of_leads hc rfl⟩
  | _ => exact ⟨_, _, rfl, by decide, by decide⟩

/-- And so do elements, behind their gaps. -/
theorem SpelledItems.exists_head {vs : List Tree} {s : Text} (h : SpelledItems vs s) (rest : Text) :
    ∃ c t, skipGaps (s ++ rest) = c :: t ∧ c ≠ ']' := by
  have htext : ∀ {v : Tree} {s : Text} (rest : Text), SpelledText v s →
      ∃ c t, skipGaps (s ++ rest) = c :: t ∧ c ≠ ']' := by
    rintro v s rest ⟨hfront, hvalue, -⟩
    obtain ⟨c, t, rfl, hgap, hclose⟩ := hvalue.exists_head
    rw [List.append_assoc, skipGaps_append hfront, List.cons_append, List.cons_append,
      skipGaps_cons hgap]
    exact ⟨c, _, rfl, hclose⟩
  cases h with
  | last hvalue => exact htext rest hvalue
  | cons hvalue _ =>
    rw [List.append_assoc]
    exact htext _ hvalue

/-- Members begin with a quote, behind their gaps. -/
theorem SpelledMembers.exists_head {ms : List (List Piece × Tree)} {s : Text}
    (h : SpelledMembers ms s) (rest : Text) : ∃ t, skipGaps (s ++ rest) = '"' :: t := by
  have hmember : ∀ {m : List Piece × Tree} {s : Text} (rest : Text), SpelledMember m s →
      ∃ t, skipGaps (s ++ rest) = '"' :: t := by
    rintro m s rest ⟨hfront, -, -, -⟩
    rw [List.append_assoc, skipGaps_append hfront, List.cons_append, skipGaps_cons rfl]
    exact ⟨_, rfl⟩
  cases h with
  | last hm => exact hmember rest hm
  | cons hm _ =>
    rw [List.append_assoc]
    exact hmember _ hm

end Tree

end DocQuery
