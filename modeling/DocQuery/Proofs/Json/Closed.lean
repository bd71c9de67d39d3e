import DocQuery.Json.Tree
import DocQuery.Proofs.Literal.Reader
/-!
# Compact JSON is closed

Outside its strings a compact JSON text consists of a few marks: digits
and what else numbers are spelled with, brackets, commas, colons and the
letters of three words. A reader of query text that stops at none of them
gets through any value, however its strings are filled and however deep it
is nested (`closed_compact`), and so through anything that a comparison
can have on its right (`closed_encode`).
-/

namespace DocQuery

/-! ## The characters of numbers -/

/-- A character that numbers are spelled with. -/
def isNumeral (c : Char) : Bool := c.isDigit || c = '-' || c = '+' || c = '.' || c = 'e'

theorem isNumeral_of_mem_ofNat {n : Nat} {c : Char} (h : c ∈ Text.ofNat n) : isNumeral c := by
  simp [isNumeral, Text.isDigit_of_mem_ofNat h]

theorem isNumeral_of_mem_ofInt {i : Int} {c : Char} (h : c ∈ Text.ofInt i) : isNumeral c := by
  cases i with
  | ofNat n => exact isNumeral_of_mem_ofNat h
  | negSucc n =>
    rcases List.mem_cons.1 h with rfl | h
    · rfl
    · exact isNumeral_of_mem_ofNat h

namespace Binary64

variable {digits : Text} {k : Int} {c : Char}

/-- A positional spelling adds zeros and the point to its digits. -/
theorem isNumeral_of_mem_positional (hdigits : ∀ c ∈ digits, isNumeral c)
    (h : c ∈ positional digits k) : isNumeral c := by
  rw [positional] at h
  split at h
  · simp only [List.mem_cons, List.mem_append] at h
    rcases h with rfl | rfl | h | h
    · rfl
    · rfl
    · rw [List.eq_of_mem_replicate h]
      rfl
    · exact hdigits c h
  split at h
  · simp only [List.mem_append, List.mem_cons, List.not_mem_nil, or_false] at h
    rcases h with (h | h) | rfl | rfl
    · exact hdigits c h
    · rw [List.eq_of_mem_replicate h]
      rfl
    · rfl
    · rfl
  · simp only [List.mem_append, List.mem_cons] at h
    rcases h with h | rfl | h
    · exact hdigits c (List.mem_of_mem_take h)
    · rfl
    · exact hdigits c (List.mem_of_mem_drop h)

/-- An exponential spelling adds the point, the mark and the exponent. -/
theorem isNumeral_of_mem_exponential (hdigits : ∀ c ∈ digits, isNumeral c)
    (h : c ∈ exponential digits k) : isNumeral c := by
  have hexponent : ∀ c ∈ 'e' :: (if k < 0 then '-' else '+') :: Text.ofNat k.natAbs,
      isNumeral c := by
    intro c h
    simp only [List.mem_cons] at h
    rcases h with rfl | rfl | h
    · rfl
    · split <;> rfl
    · exact isNumeral_of_mem_ofNat h
  rcases List.mem_append.1 h with h | h
  · rcases digits with _ | ⟨first, _ | ⟨second, rest⟩⟩
    · cases h
    · exact hdigits c h
    · -- the point is the only character that is not one of the digits
      rcases List.mem_cons.1 h with rfl | h
      · exact hdigits c List.mem_cons_self
      rcases List.mem_cons.1 h with rfl | h
      · rfl
      · exact hdigits c (List.mem_cons_of_mem _ h)
  · exact hexponent c h

/-- **A spelled double holds characters of numbers only.** -/
theorem isNumeral_of_mem_spelling {x : Binary64} (h : c ∈ x.spelling) : isNumeral c := by
  have hmagnitude : ∀ c ∈ (if x.isZero then ['0', '.', '0'] else layout x.shortest),
      isNumeral c := by
    intro c h
    split at h
    · exact List.all_eq_true.1 (show ['0', '.', '0'].all isNumeral by decide) c h
    · rw [layout] at h
      split at h
      · exact isNumeral_of_mem_positional (fun c => isNumeral_of_mem_ofNat) h
      · exact isNumeral_of_mem_exponential (fun c => isNumeral_of_mem_ofNat) h
  rw [spelling] at h
  split at h
  · rcases List.mem_cons.1 h with rfl | h
    · rfl
    · exact hmagnitude c h
  · exact hmagnitude c h

/-- And it is not empty. -/
theorem spelling_ne_nil (x : Binary64) : x.spelling ≠ [] := by
  have hmagnitude : (if x.isZero then ['0', '.', '0'] else layout x.shortest) ≠ [] := by
    split
    · exact List.cons_ne_nil _ _
    · rw [layout]
      split
      · rw [positional]
        split
        · exact List.cons_ne_nil _ _
        split
        · exact List.append_ne_nil_of_right_ne_nil _ (List.cons_ne_nil _ _)
        · exact List.append_ne_nil_of_right_ne_nil _ (List.cons_ne_nil _ _)
      · exact List.append_ne_nil_of_right_ne_nil _ (List.cons_ne_nil _ _)
  rw [spelling]
  split
  · exact List.cons_ne_nil _ _
  · exact hmagnitude

end Binary64

theorem Number.isNumeral_of_mem_spelling {n : Number} {c : Char} (h : c ∈ n.spelling) :
    isNumeral c := by
  cases n with
  | int i _ => exact isNumeral_of_mem_ofInt h
  | float x => exact Binary64.isNumeral_of_mem_spelling h

theorem Number.spelling_ne_nil (n : Number) : n.spelling ≠ [] := by
  cases n with
  | int i _ =>
    cases i with
    | ofNat n => exact Text.ofNat_ne_nil n
    | negSucc n => exact List.cons_ne_nil _ _
  | float x => exact x.spelling_ne_nil

/-! ## Strings -/

namespace Json

/-- **What becomes of a character in a JSON string**: a backslash and a
letter that stands for it, the code of a control character, or the
character itself, which is then no quote, no backslash and no control. -/
theorem escapeChar_cases (c : Char) :
    (∃ letter, Tree.unescape? letter = some c ∧ escapeChar c = ['\\', letter]) ∨
    (c.toNat < 0x20 ∧ escapeChar c =
      ['\\', 'u', '0', '0', Nat.digitChar (c.toNat / 16), Nat.digitChar (c.toNat % 16)]) ∨
    (c ≠ '"' ∧ c ≠ '\\' ∧ 0x20 ≤ c.toNat ∧ escapeChar c = [c]) := by
  by_cases hquote : c = '"'
  · subst hquote
    exact .inl ⟨'"', rfl, rfl⟩
  by_cases hslash : c = '\\'
  · subst hslash
    exact .inl ⟨'\\', rfl, rfl⟩
  by_cases hline : c = '\n'
  · subst hline
    exact .inl ⟨'n', rfl, rfl⟩
  by_cases hreturn : c = '\r'
  · subst hreturn
    exact .inl ⟨'r', rfl, rfl⟩
  by_cases htab : c = '\t'
  · subst htab
    exact .inl ⟨'t', rfl, rfl⟩
  by_cases hback : c = '\x08'
  · subst hback
    exact .inl ⟨'b', rfl, rfl⟩
  by_cases hfeed : c = '\x0c'
  · subst hfeed
    exact .inl ⟨'f', rfl, rfl⟩
  refine .inr ?_
  unfold escapeChar
  rw [if_neg hquote, if_neg hslash, if_neg hline, if_neg hreturn, if_neg htab, if_neg hback,
    if_neg hfeed]
  split
  · rename_i hcontrol
    exact .inl ⟨hcontrol, rfl⟩
  · rename_i hcontrol
    exact .inr ⟨hquote, hslash, Nat.le_of_not_lt hcontrol, rfl⟩

end Json

variable {stop : Char → Bool}

/-- What becomes of a character in a JSON string is read inside a
literal. -/
theorem read?_jsonEscapeChar (c : Char) :
    Reader.read? stop .literal (Json.escapeChar c) = some .literal := by
  rcases Json.escapeChar_cases c with ⟨letter, -, h⟩ | ⟨hcontrol, h⟩ | ⟨hquote, hslash, -, h⟩
  · rw [h]
    exact Reader.read?_literal_escape letter
  · have hdigit : ∀ n < 16, Nat.digitChar n ≠ '"' ∧ Nat.digitChar n ≠ '\\' := by decide
    have htail : ∀ d ∈ ['0', '0', Nat.digitChar (c.toNat / 16), Nat.digitChar (c.toNat % 16)],
        d ≠ '"' ∧ d ≠ '\\' := by
      simp only [List.mem_cons, List.not_mem_nil, or_false]
      rintro d (rfl | rfl | rfl | rfl)
      · decide
      · decide
      · exact hdigit _ (by omega)
      · exact hdigit _ (by omega)
    rw [h]
    change Reader.read? stop .literal ['0', '0', _, _] = some .literal
    exact Reader.read?_of_forall fun d hd =>
      Reader.read?_literal_singleton (htail d hd).1 (htail d hd).2
  · rw [h]
    exact Reader.read?_literal_singleton hquote hslash

/-- A JSON string is closed. -/
theorem closed_jsonQuote (hstop : stop '"' = false) (t : Text) : Closed stop (Json.quote t) :=
  Closed.quoted hstop (Reader.read?_flatMap read?_jsonEscapeChar)

/-! ## Values -/

/-- The characters that compact JSON has outside strings besides those of
numbers, and the quote. -/
def jsonMarks : Text := "[],:\"aflnrstu\x7b\x7d".toList

/-- A reader that stops at nothing that compact JSON has outside
strings. -/
structure PassesJson (stop : Char → Bool) : Prop where
  /-- It passes what numbers are spelled with. -/
  numeral : ∀ c, isNumeral c → stop c = false
  /-- It passes the other marks. -/
  mark : jsonMarks.all (!stop ·)

namespace PassesJson

section

variable (h : PassesJson stop)

include h

theorem pass_mark {c : Char} (hc : c ∈ jsonMarks) : stop c = false := by
  simpa using List.all_eq_true.1 h.mark c hc

theorem quote : stop '"' = false := h.pass_mark (by decide)

/-- One mark other than the quote is closed. -/
theorem closed_mark {c : Char} (hc : c ∈ jsonMarks) (hquote : c ≠ '"') : Closed stop [c] := by
  refine Closed.of_forall fun d hd => ?_
  cases List.mem_singleton.1 hd
  exact ⟨hquote, h.pass_mark hc⟩

/-- A word of marks and letters of numbers is closed. -/
theorem closed_word {t : Text}
    (ht : t.all fun c => c ≠ '"' && (isNumeral c || jsonMarks.contains c)) : Closed stop t := by
  refine Closed.of_all (fun c hc => ?_) ht
  rcases Bool.or_eq_true_iff.1 hc with hc | hc
  · exact h.numeral c hc
  · exact h.pass_mark (List.contains_iff_mem.1 hc)

theorem closed_spelling (n : Number) : Closed stop n.spelling := by
  refine Closed.of_forall fun c hc => ?_
  have hnumeral := Number.isNumeral_of_mem_spelling hc
  refine ⟨?_, h.numeral c hnumeral⟩
  rintro rfl
  exact absurd hnumeral (by decide)

/-- Closed texts between brackets, with commas between them, are closed. -/
theorem closed_bracketed {left right : Char} (hleft : left ∈ jsonMarks ∧ left ≠ '"')
    (hright : right ∈ jsonMarks ∧ right ≠ '"') {ts : List Text} (hts : ∀ t ∈ ts, Closed stop t) :
    Closed stop (left :: (List.intercalate [','] ts ++ [right])) := by
  have hinside : Closed stop (List.intercalate [','] ts) :=
    Closed.intercalate (h.closed_mark (by decide) (by decide)) hts
  exact (h.closed_mark hleft.1 hleft.2).append
    (hinside.append (h.closed_mark hright.1 hright.2))

end

mutual

/-- **Compact JSON is closed.** -/
theorem closed_compact (h : PassesJson stop) : ∀ v : Json, Closed stop v.compact
  | .null => h.closed_word (by decide)
  | .bool true => h.closed_word (by decide)
  | .bool false => h.closed_word (by decide)
  | .num n => h.closed_spelling n
  | .str s => closed_jsonQuote h.quote s
  | .arr items => h.closed_bracketed (by decide) (by decide) (closed_compactItems h items)
  | .obj members => h.closed_bracketed (by decide) (by decide) (closed_compactMembers h members)

theorem closed_compactItems (h : PassesJson stop) :
    ∀ (items : List Json), ∀ t ∈ Json.compactItems items, Closed stop t
  | [], _, ht => by cases ht
  | v :: rest, t, ht => by
    rcases List.mem_cons.1 ht with rfl | ht
    · exact closed_compact h v
    · exact closed_compactItems h rest t ht

theorem closed_compactMembers (h : PassesJson stop) :
    ∀ (members : List (Text × Json)), ∀ t ∈ Json.compactMembers members, Closed stop t
  | [], _, ht => by cases ht
  | (k, v) :: rest, t, ht => by
    rcases List.mem_cons.1 ht with rfl | ht
    · exact (closed_jsonQuote h.quote k).append
        ((h.closed_mark (by decide) (by decide)).append (closed_compact h v))
    · exact closed_compactMembers h rest t ht

end

/-- **A literal operand is closed**, whatever its value. -/
theorem closed_encode (h : PassesJson stop) (v : Json) : Closed stop (Operand.lit v).encode := by
  cases v with
  | str s => exact closed_literal h.quote s
  | _ => exact h.closed_compact _

end PassesJson

/-- No value has an empty text. -/
theorem Operand.encode_lit_ne_nil (v : Json) : (Operand.lit v).encode ≠ [] := by
  cases v with
  | num n => exact n.spelling_ne_nil
  | bool b => cases b <;> exact List.cons_ne_nil _ _
  | _ => exact List.cons_ne_nil _ _

end DocQuery
