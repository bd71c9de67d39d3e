import DocQuery.Json.Basic
import DocQuery.Json.Tree
import DocQuery.Numeral
/-!
# From trees to values

A tree denotes a value when its strings are texts and its numbers are in
range. The reading of numerals is a parameter: `read?` takes JSON's
bounded-work reading, and any other leaves everything else as it is. Of
members with the same key the last value counts, at the place of the
first.

A record with a fixed list of named fields is read without values. It is
written as an object, or as an array with the fields in their order.
`fields?` finds the tree of each field without looking into anything
else: members of other names are skipped whatever they hold, a field
given twice is refused, and an array may end early but not go on. The
readings of single fields, as text, flag and 64-bit count, accept one
JSON kind each.
-/

namespace DocQuery

/-! ## Strings -/

/-- Whether a UTF-16 unit is the first half of a surrogate pair. -/
def isHighSurrogate (u : Nat) : Bool := 0xD800 ≤ u && u < 0xDC00

/-- Whether a UTF-16 unit is the second half of a surrogate pair. -/
def isLowSurrogate (u : Nat) : Bool := 0xDC00 ≤ u && u < 0xE000

/-- The character that a surrogate pair encodes. -/
def pairedChar (high low : Nat) : Char :=
  Char.ofNat (0x10000 + (high - 0xD800) * 0x400 + (low - 0xDC00))

/-- **The text of a string.** A surrogate must be half of a pair, and both
halves spelled as units. -/
def Piece.text? : List Piece → Option Text
  | [] => some []
  | .char c :: rest => do return c :: (← text? rest)
  | .unit u :: rest =>
    if isHighSurrogate u then
      match rest with
      | .unit v :: rest =>
        if isLowSurrogate v then do return pairedChar u v :: (← text? rest) else none
      | _ => none
    else if isLowSurrogate u then none
    else do return Char.ofNat u :: (← text? rest)

/-! ## Members -/

/-- A list of members with one key set: in place where the key is there,
at the end where it is not. -/
def setMember (members : List (Text × Json)) (key : Text) (value : Json) : List (Text × Json) :=
  match members with
  | [] => [(key, value)]
  | (k, v) :: rest =>
    if k = key then (k, value) :: rest else (k, v) :: setMember rest key value

/-- Members as written, with every key once. -/
def distinctMembers (members : List (Text × Json)) : List (Text × Json) :=
  members.foldl (fun ms (k, v) => setMember ms k v) []

/-! ## Values -/

namespace Tree

variable (number? : Numeral → Option Number)

mutual

/-- **The value of a tree** under a reading of its numerals. -/
def toJson? : Tree → Option Json
  | null => some .null
  | bool b => some (.bool b)
  | num n => do return .num (← number? n)
  | str ps => do return .str (← Piece.text? ps)
  | arr items => do return .arr (← toItems? items)
  | obj members => do return .obj (distinctMembers (← toMembers? members))

/-- The values of the elements of an array. -/
def toItems? : List Tree → Option (List Json)
  | [] => some []
  | v :: rest => do return (← toJson? v) :: (← toItems? rest)

/-- The members of an object, as written. -/
def toMembers? : List (List Piece × Tree) → Option (List (Text × Json))
  | [] => some []
  | (k, v) :: rest => do
    let k ← Piece.text? k
    let v ← toJson? v
    return (k, v) :: (← toMembers? rest)

end

end Tree

/-- The number of a JSON numeral: the integer where it is spelled as one
and has at most 64 bits, and a double otherwise. -/
def Numeral.toNumber? (n : Numeral) : Option Number :=
  match n.integer? with
  | some i =>
    if h : Number.InRange i then some (.int i h) else do return .float (← n.scaled?)
  | none => do return .float (← n.scaled?)

/-- **The value of a JSON text.** -/
def Json.read? (t : Text) : Option Json := do
  (← Tree.read? t).toJson? Numeral.toNumber?

/-! ## Records -/

namespace Tree

/-- The names of members as texts; a name that is no text is refused. -/
def named? (members : List (List Piece × Tree)) : Option (List (Text × Tree)) :=
  members.mapM fun (k, v) => do return (← Piece.text? k, v)

/-- The one value of a name among members, if the name is there. A name
that is there twice is refused. -/
def unique? (members : List (Text × Tree)) (name : Text) : Option (Option Tree) :=
  match members.filter (·.1 = name) with
  | [] => some none
  | [(_, v)] => some (some v)
  | _ => none

/-- **The trees of the fields of a record**, in the order of the names,
with nothing for a field that is not given. -/
def fields? (names : List Text) : Tree → Option (List (Option Tree))
  | obj members => do
    let members ← named? members
    names.mapM (unique? members)
  | arr items =>
    if items.length ≤ names.length then
      some (items.map some ++ List.replicate (names.length - items.length) none)
    else none
  | _ => none

/-- A string as a text. -/
def text? : Tree → Option Text
  | str ps => Piece.text? ps
  | _ => none

/-- A flag. -/
def flag? : Tree → Option Bool
  | bool b => some b
  | _ => none

/-- A number spelled as an integer from 0 up to the greatest of 64 bits. -/
def word? : Tree → Option UInt64
  | num n => do
    let i ← n.integer?
    if 0 ≤ i ∧ i < UInt64.size then return UInt64.ofNat i.toNat else none
  | _ => none

end Tree

end DocQuery
