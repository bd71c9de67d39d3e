import DocQuery.Json.Read
import DocQuery.Proofs.Json.Closed
import DocQuery.Proofs.Json.Exact
import DocQuery.Proofs.Json.Keys
import DocQuery.Proofs.Json.Strings
import DocQuery.Proofs.Numeral.Spelling
import DocQuery.Proofs.Sequence
/-!
# Compact JSON reads back

The compact text of a value is JSON, and its tree denotes the value
(`spelled_compact`): strings whatever their escapes, numbers when numerals
are rounded once, arrays and objects however deep they are nested. So it
reads as that value, with any text behind it that does not go on with a
number (`beginning?_compact`). Objects must have distinct keys, since of
members with the same key a reader keeps the last.
-/

namespace DocQuery

open Numeral

/-! ## Strings -/

namespace Tree

variable {c : Char}

/-- The code of a control character. -/
theorem unit?_control (h : c.toNat < 0x20) :
    unit? '0' '0' (Nat.digitChar (c.toNat / 16)) (Nat.digitChar (c.toNat % 16)) =
      some c.toNat := by
  have hvalue : ∀ n < 16, hexValue? (Nat.digitChar n) = some n := by decide
  have hzero : hexValue? '0' = some 0 := by decide
  rw [unit?, hzero, hvalue _ (by omega), hvalue _ (by omega)]
  exact congrArg some (by omega)

/-- **A character of a JSON string is spelled as one piece**, which stands
for it. -/
theorem exists_piece (c : Char) : ∃ p : Piece, SpelledPiece p (Json.escapeChar c) ∧
    ∀ ps, Piece.text? (p :: ps) = (Piece.text? ps).map (c :: ·) := by
  rcases Json.escapeChar_cases c with ⟨letter, hletter, h⟩ | ⟨hcontrol, h⟩ |
    ⟨hquote, hslash, hcontrol, h⟩
  · rw [h]
    exact ⟨.char c, .letter (unescape?_eq_some_iff.1 hletter), Piece.text?_char c⟩
  · rw [h]
    exact ⟨.unit c.toNat, .unit (unit?_control hcontrol), Piece.text?_unit (by omega)⟩
  · rw [h]
    exact ⟨.char c, .plain hquote hslash hcontrol, Piece.text?_char c⟩

/-- **A text is spelled between the quotes of a JSON string.** -/
theorem exists_pieces (s : Text) : ∃ ps : List Piece, Piece.text? ps = some s ∧
    SpelledPieces ps (s.flatMap Json.escapeChar) := by
  induction s with
  | nil => exact ⟨[], rfl, .nil⟩
  | cons c s ih =>
    obtain ⟨p, hpiece, htext⟩ := exists_piece c
    obtain ⟨ps, hps, hspelled⟩ := ih
    refine ⟨p :: ps, by rw [htext, hps]; rfl, ?_⟩
    rw [List.flatMap_cons]
    exact .cons hpiece hspelled

/-! ## What trees denote -/

section

variable {number? : Numeral → Option Number} {k : Text} {v : Json} {tree : Tree}

theorem toJson?_num {m : Numeral} {n : Number} (h : number? m = some n) :
    toJson? number? (.num m) = some (.num n) := by
  change (number? m).bind _ = _
  rw [h]
  rfl

theorem toJson?_str {ps : List Piece} {s : Text} (h : Piece.text? ps = some s) :
    toJson? number? (.str ps) = some (.str s) := by
  change (Piece.text? ps).bind _ = _
  rw [h]
  rfl

theorem toJson?_arr {ts : List Tree} {vs : List Json} (h : toItems? number? ts = some vs) :
    toJson? number? (.arr ts) = some (.arr vs) := by
  change (toItems? number? ts).bind _ = _
  rw [h]
  rfl

/-- Members with distinct keys are kept as they are. -/
theorem toJson?_obj {ts : List (List Piece × Tree)} {ms : List (Text × Json)}
    (h : toMembers? number? ts = some ms) (hkeys : (Json.keys ms).Nodup) :
    toJson? number? (.obj ts) = some (.obj ms) := by
  change (toMembers? number? ts).bind _ = _
  rw [h]
  exact congrArg (fun ms => some (Json.obj ms)) (Json.distinctMembers_of_nodup hkeys)

theorem toItems?_cons {ts : List Tree} {vs : List Json} (hv : toJson? number? tree = some v)
    (hvs : toItems? number? ts = some vs) : toItems? number? (tree :: ts) = some (v :: vs) := by
  change (toJson? number? tree).bind _ = _
  rw [hv]
  change (toItems? number? ts).bind _ = _
  rw [hvs]
  rfl

theorem toMembers?_cons {ps : List Piece} {ts : List (List Piece × Tree)}
    {ms : List (Text × Json)} (hk : Piece.text? ps = some k) (hv : toJson? number? tree = some v)
    (hms : toMembers? number? ts = some ms) :
    toMembers? number? ((ps, tree) :: ts) = some ((k, v) :: ms) := by
  change (Piece.text? ps).bind _ = _
  rw [hk]
  change (toJson? number? tree).bind _ = _
  rw [hv]
  change (toMembers? number? ts).bind _ = _
  rw [hms]
  rfl

end

end Tree

/-! ## Compact texts -/

namespace Json

open DocQuery.Tree

/-- A compact text begins with no gap and with no closing bracket. -/
theorem exists_head_compact (v : Json) :
    ∃ c t, v.compact = c :: t ∧ isGap c = false ∧ c ≠ ']' := by
  cases v with
  | bool b => cases b <;> exact ⟨_, _, rfl, by decide, by decide⟩
  | num n =>
    obtain ⟨m, hreadable, htext, -⟩ := n.exists_numeral
    obtain ⟨c, t, hhead, hc⟩ := exists_head_numeral (spelled_text hreadable)
    refine ⟨c, t, htext.symm.trans hhead, ?_⟩
    exact ⟨isGap_of_leads hc, ne_of_leads hc rfl⟩
  | _ => exact ⟨_, _, rfl, by decide, by decide⟩

/-- **What a text spells that denotes a value**: the value by its tree. -/
def Spells (v : Json) (s : Text) : Prop := ∃ t : Tree, t.toJson? rounded? = some v ∧ t.Spelled s

variable {v : Json} {items : List Json} {members : List (Text × Json)}

theorem spells_num (n : Number) : Spells (.num n) n.spelling := by
  obtain ⟨m, hreadable, htext, hexact⟩ := n.exists_numeral
  refine ⟨.num m, toJson?_num hexact, .num ?_⟩
  rw [← htext]
  exact spelled_text hreadable

theorem spells_str (s : Text) : Spells (.str s) (quote s) := by
  obtain ⟨ps, htext, hspelled⟩ := exists_pieces s
  exact ⟨.str ps, toJson?_str htext, .str hspelled⟩

/-- A member is a string, a colon and a value. -/
theorem spelledMember_compact {k : Text} {ps : List Piece} {t : Tree}
    (hkey : SpelledPieces ps (k.flatMap escapeChar)) (h : t.Spelled v.compact) :
    SpelledMember (ps, t) (quote k ++ ':' :: v.compact) := by
  have hnone : IsGaps [] := rfl
  have hsplit : quote k ++ ':' :: v.compact =
      '"' :: (k.flatMap escapeChar ++ '"' :: ':' :: v.compact) := by
    rw [quote, List.cons_append, List.append_assoc, List.singleton_append]
  rw [hsplit]
  exact .mk hnone hkey hnone h.text

mutual

/-- **The compact text of a value spells the value.** -/
theorem spells_compact : ∀ v : Json, v.KeysDistinct → Spells v v.compact
  | .null, _ => ⟨.null, rfl, .null⟩
  | .bool true, _ => ⟨.bool true, rfl, .yes⟩
  | .bool false, _ => ⟨.bool false, rfl, .no⟩
  | .num n, _ => spells_num n
  | .str s, _ => spells_str s
  | .arr [], _ => ⟨.arr [], rfl, .emptyArray rfl⟩
  | .arr (v :: vs), h => by
    obtain ⟨ts, hvalue, hspelled⟩ := spelled_items (v :: vs) (List.cons_ne_nil v vs) h
    exact ⟨.arr ts, toJson?_arr hvalue, .array hspelled⟩
  | .obj [], _ => ⟨.obj [], rfl, .emptyObject rfl⟩
  | .obj (m :: ms), h => by
    obtain ⟨ts, hvalue, hspelled⟩ := spelled_members (m :: ms) (List.cons_ne_nil m ms) h.2
    exact ⟨.obj ts, toJson?_obj hvalue h.1, .object hspelled⟩

/-- Elements, one at least, are spelled between their separators. -/
theorem spelled_items : ∀ items : List Json, items ≠ [] → ItemsDistinct items →
    ∃ ts : List Tree, toItems? rounded? ts = some items ∧
      SpelledItems ts (List.intercalate [','] (compactItems items))
  | [], hne, _ => absurd rfl hne
  | [v], _, h => by
    obtain ⟨t, hvalue, hspelled⟩ := spells_compact v h.1
    refine ⟨[t], toItems?_cons hvalue rfl, ?_⟩
    rw [compactItems, compactItems, List.intercalate_singleton]
    exact .last hspelled.text
  | v :: w :: vs, _, h => by
    obtain ⟨t, hvalue, hspelled⟩ := spells_compact v h.1
    obtain ⟨ts, hvalues, hitems⟩ := spelled_items (w :: vs) (List.cons_ne_nil w vs) h.2
    refine ⟨t :: ts, toItems?_cons hvalue hvalues, ?_⟩
    rw [compactItems, compactItems, Text.intercalate_cons]
    exact .cons hspelled.text hitems

/-- And so are members. -/
theorem spelled_members : ∀ members : List (Text × Json), members ≠ [] → MembersDistinct members →
    ∃ ts : List (List Piece × Tree), toMembers? rounded? ts = some members ∧
      SpelledMembers ts (List.intercalate [','] (compactMembers members))
  | [], hne, _ => absurd rfl hne
  | [(k, v)], _, h => by
    obtain ⟨ps, htext, hkey⟩ := exists_pieces k
    obtain ⟨t, hvalue, hspelled⟩ := spells_compact v h.1
    refine ⟨[(ps, t)], toMembers?_cons htext hvalue rfl, ?_⟩
    rw [compactMembers, compactMembers, List.intercalate_singleton]
    exact .last (spelledMember_compact hkey hspelled)
  | (k, v) :: m :: ms, _, h => by
    obtain ⟨ps, htext, hkey⟩ := exists_pieces k
    obtain ⟨t, hvalue, hspelled⟩ := spells_compact v h.1
    obtain ⟨ts, hvalues, hmembers⟩ := spelled_members (m :: ms) (List.cons_ne_nil m ms) h.2
    refine ⟨(ps, t) :: ts, toMembers?_cons htext hvalue hvalues, ?_⟩
    rw [compactMembers, compactMembers, Text.intercalate_cons]
    exact .cons (spelledMember_compact hkey hspelled) hmembers

end

/-- The value that a text begins with, every number rounded once to the
nearest double, and the text behind it. -/
def beginning? (t : Text) : Option (Json × Text) := do
  let (tree, rest) ← Tree.value? (2 * t.length + 2) t
  return (← tree.toJson? rounded?, rest)

/-- **A value reads back from its compact text**, with any text behind it
that does not go on with a number. -/
theorem beginning?_compact (h : v.KeysDistinct) {rest : Text} (hrest : Ends rest) :
    beginning? (v.compact ++ rest) = some (v, rest) := by
  obtain ⟨t, hvalue, hspelled⟩ := spells_compact v h
  have hsteps : v.compact.length ≤ 2 * (v.compact ++ rest).length + 2 := by
    rw [List.length_append]
    omega
  rw [beginning?, value?_spelled hspelled hrest hsteps]
  change (do return (← t.toJson? rounded?, rest) : Option (Json × Text)) = _
  rw [hvalue]
  rfl

/-- The value of a JSON text that holds one value and nothing else but
gaps. -/
def readRounded? (t : Text) : Option Json := do
  let (v, rest) ← beginning? t
  if (skipGaps rest).isEmpty then return v else none

/-- And from a text that holds nothing else. -/
theorem readRounded?_compact (h : v.KeysDistinct) : readRounded? v.compact = some v := by
  have hread := beginning?_compact h (show Ends [] from rfl)
  rw [List.append_nil] at hread
  rw [readRounded?, hread]
  rfl

/-! ## What a text means -/

/-- **A JSON text that means a value**: it has a tree, and every tree that
it spells denotes the value. -/
def Means (s : Text) (v : Json) : Prop :=
  (∃ t : Tree, SpelledText t s) ∧ ∀ t : Tree, SpelledText t s → t.toJson? rounded? = some v

/-- A text has one tree, so it means what any of its trees denotes. -/
theorem Spells.means {s : Text} (h : Spells v s) : Means s v := by
  obtain ⟨t, hvalue, hspelled⟩ := h
  refine ⟨⟨t, hspelled.text⟩, fun u hu => ?_⟩
  have hsame := (read?_eq_some_iff.2 hspelled.text).symm.trans (read?_eq_some_iff.2 hu)
  rwa [← Option.some.inj hsame]

/-- **The compact text of a value means that value.** -/
theorem means_compact (h : v.KeysDistinct) : Means v.compact v := (spells_compact v h).means

end Json

end DocQuery
