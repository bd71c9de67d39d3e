import DocQuery.Json.Basic
/-!
# Literals and operands

The query language reads a text between double quotes and takes a
backslash and a letter for one of seven characters. `Literal.escape`
writes those seven so and every other character as it stands; the quotes
are written around the result, by `Literal.quote`, and by nothing else.

Every scalar has a text cast: a text itself, an integer its digits, `true`
the digit one, and `false` and `null` nothing. A double below `10 ^ 15`
that has no fraction is cast as the integer it is, so the two classes of
numbers meet there; any other double keeps its JSON spelling. Arrays and
objects have no cast.

An operand says how a text given to a clause is meant: as a value, as the
name of a field of the record at hand, or as a fragment of query text. It
is rendered in two ways. `encode` is the complete spelling on the right of
a comparison; `plain` is the bare text, which neither quotes nor resolves.
-/

namespace DocQuery

/-! ## Backslash escapes -/

namespace Literal

/-- The escaped characters, each with the letter that stands for it behind
a backslash. -/
def escapes : List (Char × Char) :=
  [('\\', '\\'), ('\x00', '0'), ('\n', 'n'), ('\r', 'r'), ('\'', '\''), ('"', '"'), ('\x1a', 'Z')]

/-- A character, escaped where it has an escape. -/
def escapeChar (c : Char) : Text :=
  match escapes.lookup c with
  | some letter => ['\\', letter]
  | none => [c]

/-- **A text with its seven special characters escaped.** No quotes are
added. -/
def escape (t : Text) : Text := t.flatMap escapeChar

/-- A text as a literal: escaped, between double quotes. -/
def quote (t : Text) : Text := '"' :: (escape t ++ ['"'])

end Literal

/-! ## Casting a scalar to text -/

/-- The magnitude from which a double is no longer cast as an integer. -/
abbrev Number.integerCastBound : Nat := tenTo 15

/-- The text cast of a number. -/
def Number.cast : Number → Text
  | .int i _ => Text.ofInt i
  | .float x =>
    if x.isIntegral && x.trunc < integerCastBound then
      Text.ofInt (if x.negative then -x.trunc else x.trunc)
    else x.spelling

namespace Json

/-- **The text cast of a scalar**, and nothing for an array or object. -/
def cast? : Json → Option Text
  | str s => some s
  | bool true => some ['1']
  | bool false => some []
  | null => some []
  | num n => some n.cast
  | arr _ => none
  | obj _ => none

/-- The escaped cast of a value, without quotes. An array or object, which
has no cast, gives its escaped compact text. -/
def escapedCast (v : Json) : Text := Literal.escape (v.cast?.getD v.compact)

end Json

/-! ## Operands -/

/-- A value, a field or a fragment. -/
inductive Operand
  /-- A value, written as a literal. -/
  | lit (value : Json)
  /-- A field of the record at hand, by name. -/
  | field (name : Text)
  /-- Query text, written as it stands. -/
  | raw (text : Text)

/-- How a field of the record at hand is addressed: `this["name"]`. The
name stands as it is. -/
def accessor (name : Text) : Text := "this[\"".toList ++ name ++ "\"]".toList

namespace Operand

/-- The value of a literal. -/
def literal? : Operand → Option Json
  | lit v => some v
  | _ => none

/-- Whether an operand is a literal array or object. -/
def isComposite : Operand → Bool
  | lit v => v.isComposite
  | _ => false

/-- The bare text of an operand. A value that is no text gives its compact
text. -/
def plain : Operand → Text
  | lit (.str s) => s
  | lit v => v.compact
  | field name => name
  | raw text => text

/-- **The complete spelling of an operand**: a text is quoted and escaped,
any other value is compact JSON, a field is resolved, and a fragment
stands as it is. -/
def encode : Operand → Text
  | lit (.str s) => Literal.quote s
  | lit v => v.compact
  | field name => accessor name
  | raw text => text

/-- The bare text of an operand, with a field resolved. -/
def resolved : Operand → Text
  | field name => accessor name
  | other => other.plain

/-- The text of an operand that selects a field to sort or group by. Of
the literals only texts do. -/
def selector? : Operand → Option Text
  | lit (.str s) => some s
  | field name => some (accessor name)
  | raw text => some text
  | lit _ => none

end Operand

end DocQuery
