import DocQuery.Proofs.Json.Closed
import DocQuery.Proofs.Update.Run
import Mathlib.Data.List.Forall2
/-!
# Leaves do not shape a script

The outline of a document is what is left of it when every leaf is `null`:
its keys, their nesting and the places of its leaves. The script of an
outline is the outline of the script (`ofDocument_outline`), so documents
of one outline have the same guards and assign to the same paths. What
they differ in are right-hand sides, and each of those is closed for a
reader that looks for the semicolon behind it (`closed_leafText`): three
encoders write them, and every one keeps its quotes paired and its
semicolons inside.
-/

namespace DocQuery

/-! ## Right-hand sides -/

/-- The character that ends a statement. -/
def endsStatement (c : Char) : Bool := c = ';'

/-- A reader that looks for the end of a statement passes JSON. -/
theorem passesJson_endsStatement : PassesJson endsStatement where
  numeral c h := by
    have hne : c ≠ ';' := by
      rintro rfl
      exact absurd h (by decide)
    simpa [endsStatement] using hne
  mark := by decide

/-- A number is cast to characters of numbers. -/
theorem Number.isNumeral_of_mem_cast {n : Number} {c : Char} (h : c ∈ n.cast) : isNumeral c := by
  cases n with
  | int i _ => exact isNumeral_of_mem_ofInt h
  | float x =>
    rw [Number.cast] at h
    split at h
    · exact isNumeral_of_mem_ofInt h
    · exact Binary64.isNumeral_of_mem_spelling h

namespace Literal

/-- A character that is not among the escaped ones stands for itself. -/
theorem escapeChar_of_isNumeral {c : Char} (h : isNumeral c) : escapeChar c = [c] := by
  have hplain : escapes.lookup c = none := by
    rw [List.lookup_eq_none_iff]
    intro e he
    have hescaped : ∀ e ∈ escapes, isNumeral e.1 = false := by decide
    have hne : c ≠ e.1 := by
      rintro rfl
      exact absurd h (by simp [hescaped e he])
    simpa using hne
  rw [escapeChar, hplain]

/-- So numbers are not changed by escaping. -/
theorem escape_of_isNumeral {t : Text} (h : ∀ c ∈ t, isNumeral c) : escape t = t := by
  induction t with
  | nil => rfl
  | cons c t ih =>
    have hc : escapeChar c = [c] := escapeChar_of_isNumeral (h c List.mem_cons_self)
    have ht : escape t = t := ih fun d hd => h d (List.mem_cons_of_mem c hd)
    rw [escape, List.flatMap_cons, hc]
    exact congrArg (c :: ·) ht

end Literal

/-- The right-hand side of a number is its cast. -/
theorem leafText_num (n : Number) : leafText (.num n) = n.cast :=
  Literal.escape_of_isNumeral fun _ => Number.isNumeral_of_mem_cast

/-- **A right-hand side is closed**, whatever the leaf: a reader gets from
its beginning to its end without a semicolon outside literals, and is
outside literals there. -/
theorem closed_leafText (v : Json) : Closed endsStatement (leafText v) := by
  cases v with
  | str s => exact closed_literal rfl s
  | arr items => exact passesJson_endsStatement.closed_compact (.arr items)
  | obj members => exact passesJson_endsStatement.closed_compact (.obj members)
  | null => exact Closed.nil
  | bool b =>
    cases b
    · exact Closed.nil
    · rfl
  | num n =>
    rw [leafText_num]
    refine Closed.of_forall fun c hc => ?_
    have hnumeral : isNumeral c := Number.isNumeral_of_mem_cast hc
    refine ⟨?_, passesJson_endsStatement.numeral c hnumeral⟩
    rintro rfl
    exact absurd hnumeral (by decide)

/-! ## Outlines -/

namespace Json

mutual

/-- A value with `null` in place of every leaf. -/
def outline : Json → Json
  | obj (m :: ms) => obj (memberOutlines (m :: ms))
  | _ => null

/-- **Members with `null` in place of every leaf.** -/
def memberOutlines : List (Text × Json) → List (Text × Json)
  | [] => []
  | (k, v) :: rest => (k, outline v) :: memberOutlines rest

end

theorem outline_of_isLeaf {v : Json} (h : v.isLeaf) : outline v = null := by
  cases v with
  | obj members =>
    cases members with
    | nil => rfl
    | cons m ms => cases h
  | _ => rfl

end Json

/-- An instruction with `null` in place of the leaf that it assigns. -/
def Instruction.outline : Instruction → Instruction
  | guard path => guard path
  | assign path _ => assign path .null

namespace Script

/-- **The script of an outline is the outline of the script**, for a value
at a path. -/
theorem ofValue_outline (v : Json) : ∀ p : KeyPath,
    ofValue p v.outline = (ofValue p v).map Instruction.outline := by
  induction v using Json.value_induction (Q := fun ms => ∀ p : KeyPath,
    ofMembers p (Json.memberOutlines ms) = (ofMembers p ms).map Instruction.outline) with
  | leaf v h =>
    intro p
    rw [Json.outline_of_isLeaf h, ofValue_of_isLeaf h]
    rfl
  | object m ms ih =>
    intro p
    have hentry : (entry p).map Instruction.outline = entry p := by
      unfold entry
      split <;> rfl
    rw [ofValue, List.map_append, hentry, ← ih p]
    rfl
  | nil p => rfl
  | cons k v rest ihv ihrest p =>
    rw [Json.memberOutlines, ofMembers, ofMembers, List.map_append, ihv, ihrest]

/-- And so it is for a document. -/
theorem ofDocument_outline (members : List (Text × Json)) :
    ofDocument (Json.memberOutlines members) = (ofDocument members).map Instruction.outline := by
  induction members with
  | nil => rfl
  | cons m rest ih =>
    obtain ⟨k, v⟩ := m
    have hmember : ofMember k v.outline = (ofMember k v).map Instruction.outline := by
      rw [ofMember, ofMember, List.map_cons, ofValue_outline]
      rfl
    rw [Json.memberOutlines, ofDocument_cons, ofDocument_cons, hmember, ih, List.map_append]

end Script

/-! ## Scripts of one outline -/

/-- **Two instructions that differ in a self-contained right-hand side at
most**: guards of one path, or assignments to one path, each of a closed
text. -/
inductive Instruction.SameFrame : Instruction → Instruction → Prop
  /-- A guard is the same guard. -/
  | guard (path : KeyPath) : SameFrame (guard path) (guard path)
  /-- An assignment has the same target. -/
  | assign (path : KeyPath) {leaf₁ leaf₂ : Json} (closed₁ : Closed endsStatement (leafText leaf₁))
      (closed₂ : Closed endsStatement (leafText leaf₂)) :
      SameFrame (assign path leaf₁) (assign path leaf₂)

theorem Instruction.sameFrame_of_outline_eq {i j : Instruction} (h : i.outline = j.outline) :
    i.SameFrame j := by
  cases i with
  | guard p =>
    cases j with
    | guard q =>
      cases h
      exact .guard p
    | assign q leaf => cases h
  | assign p leaf₁ =>
    cases j with
    | guard q => cases h
    | assign q leaf₂ =>
      cases h
      exact .assign p (closed_leafText leaf₁) (closed_leafText leaf₂)

namespace Script

/-- **No leaf can change the structure of a script.** The right-hand side
of every leaf is closed; and the scripts of two documents that differ in
their leaves only are equally long and differ, statement by statement, in
nothing but such right-hand sides. -/
theorem sameFrame_of_memberOutlines_eq :
    (∀ leaf : Json, leaf.isLeaf → Closed endsStatement (leafText leaf)) ∧
    ∀ members₁ members₂ : List (Text × Json),
      Json.memberOutlines members₁ = Json.memberOutlines members₂ →
        (statements members₁).length = (statements members₂).length ∧
        statements members₁ = (ofDocument members₁).map Instruction.text ∧
        statements members₂ = (ofDocument members₂).map Instruction.text ∧
        List.Forall₂ Instruction.SameFrame (ofDocument members₁) (ofDocument members₂) := by
  refine ⟨fun leaf _ => closed_leafText leaf, fun members₁ members₂ h => ?_⟩
  have houtlines : (ofDocument members₁).map Instruction.outline =
      (ofDocument members₂).map Instruction.outline := by
    rw [← ofDocument_outline, ← ofDocument_outline, h]
  have hframes : List.Forall₂ Instruction.SameFrame (ofDocument members₁)
      (ofDocument members₂) := by
    rw [← List.forall₂_eq_eq_eq, List.forall₂_map_left_iff, List.forall₂_map_right_iff]
      at houtlines
    exact houtlines.imp fun _ _ => Instruction.sameFrame_of_outline_eq
  refine ⟨?_, rfl, rfl, hframes⟩
  rw [statements, statements, List.length_map, List.length_map, hframes.length_eq]

/-- A change whose leaves hold quotes, semicolons and backslashes. -/
def hostileChange : List (Text × Json) :=
  [("a".toList, .obj [("b".toList, .str "\"; a = 1;\\".toList),
    ("c".toList, .arr [.str ";\"".toList, .obj [("\\".toList, .null)]])]), ("d".toList, .obj [])]

/-- A change of the same outline with harmless leaves. -/
def harmlessChange : List (Text × Json) :=
  [("a".toList, .obj [("b".toList, .null), ("c".toList, .str [])]), ("d".toList, .bool true)]

/-- The scripts of those two changes. -/
theorem sameFrame_of_memberOutlines_eq_hostile :
    Json.memberOutlines hostileChange = Json.memberOutlines harmlessChange ∧
    (statements hostileChange).length = 6 ∧ (statements harmlessChange).length = 6 ∧
    (statements hostileChange)[2]? = some "a[\"b\"] = \"\\\"; a = 1;\\\\\";".toList ∧
    (statements harmlessChange)[2]? = some "a[\"b\"] = ;".toList ∧
    List.Forall₂ Instruction.SameFrame (ofDocument hostileChange) (ofDocument harmlessChange) := by
  have houtline : Json.memberOutlines hostileChange = Json.memberOutlines harmlessChange := rfl
  obtain ⟨-, hscripts⟩ := sameFrame_of_memberOutlines_eq
  obtain ⟨hlength, -, -, hframes⟩ := hscripts hostileChange harmlessChange houtline
  have hsix : (statements harmlessChange).length = 6 := rfl
  exact ⟨houtline, hlength.trans hsix, hsix, by decide, by decide, hframes⟩

end Script

end DocQuery
