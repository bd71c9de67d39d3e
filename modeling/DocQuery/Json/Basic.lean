import DocQuery.Binary64
/-!
# JSON values

A value keeps what its text says: an object is the list of its members in
order, and a number is an integer or a double according to how it was
spelled, so `1` and `1.0` are different values. `Json.compact` is the one
spelling of a value that this library writes: no white space, members in
their order, and in strings only those characters escaped that JSON does
not allow to stand for themselves.
-/

namespace DocQuery

/-- The integers that a number holds exactly: those of 64 bits, with or
without a sign. -/
abbrev Number.InRange (i : Int) : Prop :=
  -9223372036854775808 ≤ i ∧ i < 18446744073709551616

/-- A JSON number. -/
inductive Number
  /-- An integer spelled as one. -/
  | int (i : Int) (inRange : Number.InRange i)
  /-- Any other number. -/
  | float (x : Binary64)
deriving DecidableEq

/-- A 64-bit count as a number. -/
def Number.ofWord (w : UInt64) : Number :=
  .int w.toNat ⟨by omega, by have := w.toNat_lt; omega⟩

/-- A JSON value. -/
inductive Json
  | null
  | bool (b : Bool)
  | num (n : Number)
  | str (s : Text)
  | arr (items : List Json)
  | obj (members : List (Text × Json))

namespace Json

/-- Whether a value is an array or an object. -/
def isComposite : Json → Bool
  | arr _ => true
  | obj _ => true
  | _ => false

/-- Whether a value is an object. -/
def isObject : Json → Bool
  | obj _ => true
  | _ => false

/-- A double as a value. What is no finite double is `null`. -/
def ofDouble? : Option Binary64 → Json
  | some x => num (.float x)
  | none => null

end Json

/-! ## Compact text -/

/-- The spelling of a number. -/
def Number.spelling : Number → Text
  | .int i _ => Text.ofInt i
  | .float x => x.spelling

namespace Json

/-- A character inside a JSON string. Quote, backslash and the control
characters are escaped, by a letter where JSON has one. -/
def escapeChar (c : Char) : Text :=
  if c = '"' then ['\\', '"']
  else if c = '\\' then ['\\', '\\']
  else if c = '\n' then ['\\', 'n']
  else if c = '\r' then ['\\', 'r']
  else if c = '\t' then ['\\', 't']
  else if c = '\x08' then ['\\', 'b']
  else if c = '\x0c' then ['\\', 'f']
  else if c.toNat < 0x20 then
    ['\\', 'u', '0', '0', Nat.digitChar (c.toNat / 16), Nat.digitChar (c.toNat % 16)]
  else [c]

/-- A text as a JSON string. -/
def quote (s : Text) : Text := '"' :: (s.flatMap escapeChar ++ ['"'])

mutual

/-- **The compact text of a value.** -/
def compact : Json → Text
  | null => "null".toList
  | bool true => "true".toList
  | bool false => "false".toList
  | num n => n.spelling
  | str s => quote s
  | arr items => '[' :: (List.intercalate [','] (compactItems items) ++ [']'])
  | obj members => '{' :: (List.intercalate [','] (compactMembers members) ++ ['}'])

/-- The compact texts of the elements of an array. -/
def compactItems : List Json → List Text
  | [] => []
  | v :: rest => compact v :: compactItems rest

/-- The compact texts of the members of an object. -/
def compactMembers : List (Text × Json) → List Text
  | [] => []
  | (k, v) :: rest => (quote k ++ ':' :: compact v) :: compactMembers rest

end

end Json

end DocQuery
