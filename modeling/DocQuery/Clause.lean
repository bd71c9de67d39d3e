import DocQuery.Error
import DocQuery.Numeral
import DocQuery.Operand
import DocQuery.Text.Uppercase
/-!
# Clauses

The parts of a query that a caller puts together, each compiled to text
by itself or refused: what is selected, what records are asked for, how
many, and in which order and groups. The where clause is the one part
that grows: it is the text of its predicates, each with its connective in
front, and of groups of predicates between parentheses.
-/

namespace DocQuery

/-! ## Selections

What a query selects: an expression written as it stands, or a list of
terms. A field among the terms is resolved and named back to itself, so
that the result carries the name it has in the record. -/

/-- What a query selects. -/
inductive Selection
  /-- An expression, written as it stands. -/
  | expr (text : Text)
  /-- Terms, separated by commas. -/
  | terms (terms : List Operand)

namespace Selection

/-- The text of a term. An array or object cannot be selected. -/
def term : Operand → Except Error Text
  | .field name => .ok (accessor name ++ " as \"".toList ++ name ++ ['"'])
  | o => if o.isComposite then .error (.argument .select .parameter) else .ok o.plain

/-- **The text behind `SELECT`**, or the refusal of the first term that
cannot be selected. -/
def compile : Selection → Except Error Text
  | expr text => .ok text
  | terms ts => (List.intercalate ", ".toList) <$> ts.mapM term

end Selection

/-! ## Predicates

A predicate is a fragment of query text or a comparison of a field with a
value. Its text carries no connective; the where clause adds that. -/

/-- A condition on records. -/
inductive Predicate
  /-- Text written as it stands. -/
  | fragment (text : Operand)
  /-- A field beside an operator and a value. -/
  | compare (field : Operand) (operator : Text) (value : Operand)

namespace Predicate

/-- The operator of a comparison that is given none. -/
def equality : Text := "==".toList

/-- The predicate of a field, an operator and a value of which the later
ones may be missing. A field alone is a fragment. A field and one text
compare the field with that text. -/
def ofParts (field : Operand) (operator : Option Text) (value : Option Operand) : Predicate :=
  match operator, value with
  | none, _ => fragment field
  | some text, none => compare field equality (.lit (.str text))
  | some operator, some value => compare field operator value

/-- The operand that a predicate is about. -/
def subject : Predicate → Operand
  | fragment o => o
  | compare field _ _ => field

/-- **The text of a predicate** without connective. An array or object
cannot be the subject. -/
def compile (p : Predicate) : Except Error Text :=
  if p.subject.isComposite then .error (.argument .filter .fieldSelector)
  else match p with
    | fragment o => .ok o.plain
    | compare field operator value => .ok (field.resolved ++ operator ++ value.encode)

end Predicate

/-! ## The where clause

No structure is kept beside the text of a where clause: whether a
predicate is the first of the clause or of a group, and so goes without
connective, is read off the text before it. -/

/-- How a predicate is joined to what precedes it. -/
inductive Connective
  | and | or
deriving DecidableEq

/-- A connective as written. -/
def Connective.symbol : Connective → Text
  | and => "&&".toList
  | or => "||".toList

namespace WhereClause

/-- A predicate in a clause: what joins it, its text, and a space that
parts it from the next. -/
def fragment (joint body : Text) : Text := joint ++ ' ' :: (body ++ [' '])

/-- Whether the next predicate is joined to nothing: the clause is blank,
or a group has just been opened. -/
def atStart (clause : Text) : Bool := clause.isBlank || clause.getLast? == some '('

/-- The connective as it is written after a clause: at the start there is
none. -/
def joint (c : Connective) (clause : Text) : Text := if atStart clause then [] else c.symbol

/-- A clause with one predicate more. -/
def push (c : Connective) (body : Text) (clause : Text) : Text :=
  clause ++ fragment (joint c clause) body

/-- A clause with a group opened. -/
def openGroup (c : Connective) (clause : Text) : Text := clause ++ (joint c clause ++ [' ', '('])

/-- A clause with a group closed. -/
def closeGroup (clause : Text) : Text := clause ++ [')']

end WhereClause

/-! ## Row counts

A row count is a number or a text that spells one. Integers count as they
are and do not pass through floating point; any other number is the
nearest double, taken without its fraction and at most the greatest
64-bit word. Below zero there is no count, but minus zero is not below
zero. The numerals of a text are more liberal than JSON's: a plus sign may
lead, zeros may, and the digits on one side of the point may be missing.
The words for infinities and for no number spell no count, so they need
no reading of their own. -/

namespace Count

/-- A text without a sign in front, and whether that was a minus. -/
def sign (t : Text) : Bool × Text :=
  match t with
  | '-' :: rest => (true, rest)
  | '+' :: rest => (false, rest)
  | t => (false, t)

/-- The digits after a point, if there is a point, and the rest. -/
def fraction (t : Text) : Text × Text :=
  match t with
  | '.' :: rest => Numeral.spanDigits rest
  | t => ([], t)

/-- The numeral that a text is. -/
def numeral? (t : Text) : Option Numeral := do
  let (negative, t) := sign t
  let (whole, t) := Numeral.spanDigits t
  let (fraction, t) := fraction t
  if whole.isEmpty && fraction.isEmpty then none else
  let (exponent, t) ← Numeral.exponent? t
  if t.isEmpty then return ⟨negative, whole, fraction, exponent⟩ else none

/-- The 64-bit word that a text is in decimal digits, behind a plus sign
or none. -/
def word? (t : Text) : Option UInt64 :=
  let digits := match t with
    | '+' :: rest => rest
    | t => t
  if digits ≠ [] ∧ digits.all Char.isDigit ∧ Text.toNat digits < UInt64.size then
    some (UInt64.ofNat (Text.toNat digits))
  else none

/-- The greatest count. -/
abbrev greatest : Nat := UInt64.size - 1

/-- The count of a double: its whole part, as far as a word reaches. -/
def ofDouble? (x : Binary64) : Option UInt64 :=
  if x.negative && !x.isZero then none else some (UInt64.ofNat (min x.trunc greatest))

/-- The count that a text spells between white space. -/
def ofText? (t : Text) : Option UInt64 :=
  let t := t.trim
  match word? t with
  | some n => some n
  | none => do ofDouble? (← (← numeral? t).nearest?)

/-- The count of a number. -/
def ofNumber? : Number → Option UInt64
  | .int i _ => if 0 ≤ i then some (UInt64.ofNat i.toNat) else none
  | .float x => ofDouble? x

/-- **The count of a value**, if it has one. -/
def ofJson? : Json → Option UInt64
  | .num n => ofNumber? n
  | .str t => ofText? t
  | _ => none

/-- The count of a value, or the refusal of the operation that asks for
one. -/
def compile (operation : Operation) (v : Json) : Except Error UInt64 :=
  match ofJson? v with
  | some n => .ok n
  | none => .error (.argument operation .parameter)

end Count

/-! ## Ordering and grouping

A sort direction is a keyword in any case; none at all means descending.
Case is Unicode's, so it is the upper case of the whole text that is
compared with the keywords. -/

/-- The direction of an ordering. -/
inductive Direction
  | ascending | descending
deriving DecidableEq

namespace Direction

/-- The keyword of a direction. -/
def keyword : Direction → Text
  | ascending => "ASC".toList
  | descending => "DESC".toList

/-- **The direction that a text names.** -/
def parse? (t : Text) : Option Direction :=
  let t := t.upper
  if t = [] ∨ t = descending.keyword then some descending
  else if t = ascending.keyword then some ascending
  else none

/-- The direction that a text names, or its refusal. -/
def parse (t : Text) : Except Error Direction :=
  match parse? t with
  | some d => .ok d
  | none => .error (.argument .order .direction)

end Direction

/-- **A term of an ordering**: a selector and a direction, of which the
direction is looked at first. -/
def orderTerm (field : Operand) (direction : Text) : Except Error Text := do
  let direction ← Direction.parse direction
  match field.selector? with
  | some selector => return selector ++ ' ' :: direction.keyword
  | none => throw (.argument .order .fieldSelector)

/-- **A term of a grouping**: a selector. -/
def groupTerm (field : Operand) : Except Error Text :=
  match field.selector? with
  | some selector => .ok selector
  | none => .error (.argument .group .fieldSelector)

end DocQuery
