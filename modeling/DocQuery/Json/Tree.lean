import DocQuery.Numeral
/-!
# JSON text as a tree of spellings

The grammar of JSON, read into a tree that keeps spellings: numerals are
not yet numbers, string escapes of single UTF-16 units are not yet
characters, and members are listed as written, repetitions included. A
text whose strings hold lone surrogates or whose numerals are out of
range is grammatical and has a tree; only the interpretation of a tree as
a value can object to it. Records with members that are skipped are
therefore read from trees. Nesting has no limit: `read?` gives the
mutually recursive readers as many steps as the text can need.
-/

namespace DocQuery

/-- A part of a string as spelled. -/
inductive Piece
  /-- A character, whether it stands for itself or behind a backslash. -/
  | char (c : Char)
  /-- A UTF-16 unit in hexadecimal digits. -/
  | unit (u : Nat)
deriving DecidableEq

/-- JSON text by its grammar, with strings and numbers as spelled. -/
inductive Tree
  | null
  | bool (b : Bool)
  | num (n : Numeral)
  | str (pieces : List Piece)
  | arr (items : List Tree)
  | obj (members : List (List Piece × Tree))

namespace Tree

/-! ## Blanks and fixed words -/

/-- The four characters that may stand between the tokens of JSON. -/
def isGap (c : Char) : Bool := c = ' ' || c = '\t' || c = '\n' || c = '\r'

/-- The text from its first token on. -/
def skipGaps (t : Text) : Text := t.dropWhile isGap

/-- What follows a word that the text must begin with. -/
def after? : Text → Text → Option Text
  | [], t => some t
  | _ :: _, [] => none
  | w :: word, c :: t => if w = c then after? word t else none

/-! ## Numbers -/

/-- The digits before the point, and the rest. A zero stands alone. -/
def whole? (t : Text) : Option (Text × Text) :=
  match t with
  | '0' :: rest => some (['0'], rest)
  | t => Numeral.digits? t

/-- The digits after the point, if the text begins with one, and the
rest. -/
def fraction? (t : Text) : Option (Text × Text) :=
  match t with
  | '.' :: rest => Numeral.digits? rest
  | t => some ([], t)

/-- The minus sign, if the text begins with one, and the rest. -/
def sign (t : Text) : Bool × Text :=
  match t with
  | '-' :: rest => (true, rest)
  | t => (false, t)

/-- A numeral, and the rest. -/
def numeral? (t : Text) : Option (Numeral × Text) := do
  let (negative, t) := sign t
  let (whole, t) ← whole? t
  let (fraction, t) ← fraction? t
  let (exponent, t) ← Numeral.exponent? t
  return (⟨negative, whole, fraction, exponent⟩, t)

/-! ## Strings -/

/-- The value of a hexadecimal digit of either case. -/
def hexValue? (c : Char) : Option Nat :=
  if c.isDigit then some (c.toNat - '0'.toNat)
  else if 'a' ≤ c ∧ c ≤ 'f' then some (c.toNat - 'a'.toNat + 10)
  else if 'A' ≤ c ∧ c ≤ 'F' then some (c.toNat - 'A'.toNat + 10)
  else none

/-- The UTF-16 unit that four hexadecimal digits spell. -/
def unit? (a b c d : Char) : Option Nat := do
  return (((← hexValue? a) * 16 + (← hexValue? b)) * 16 + (← hexValue? c)) * 16 + (← hexValue? d)

/-- The character that a letter behind a backslash stands for. -/
def unescape? (c : Char) : Option Char :=
  if c = '"' ∨ c = '\\' ∨ c = '/' then some c
  else if c = 'n' then some '\n'
  else if c = 'r' then some '\r'
  else if c = 't' then some '\t'
  else if c = 'b' then some '\x08'
  else if c = 'f' then some '\x0c'
  else none

/-- The inside of a string up to its closing quote, and the rest. A
control character must be escaped. -/
def pieces? : Text → Option (List Piece × Text)
  | [] => none
  | c :: rest =>
    if c = '"' then some ([], rest)
    else if c = '\\' then
      match rest with
      | [] => none
      | e :: rest =>
        if e = 'u' then
          match rest with
          | x₁ :: x₂ :: x₃ :: x₄ :: rest => do
            let u ← unit? x₁ x₂ x₃ x₄
            let (ps, rest) ← pieces? rest
            return (.unit u :: ps, rest)
          | _ => none
        else do
          let c ← unescape? e
          let (ps, rest) ← pieces? rest
          return (.char c :: ps, rest)
    else if c.toNat < 0x20 then none
    else do
      let (ps, rest) ← pieces? rest
      return (.char c :: ps, rest)

/-! ## Values -/

mutual

/-- A value in a number of steps, and the rest. -/
def value? (steps : Nat) (t : Text) : Option (Tree × Text) :=
  match steps with
  | 0 => none
  | steps + 1 =>
    match skipGaps t with
    | [] => none
    | c :: rest =>
      if c = '"' then do
        let (ps, rest) ← pieces? rest
        return (.str ps, rest)
      else if c = '[' then
        match skipGaps rest with
        | ']' :: rest => some (.arr [], rest)
        | rest => do
          let (vs, rest) ← items? steps rest
          return (.arr vs, rest)
      else if c = '\x7b' then
        match skipGaps rest with
        | '\x7d' :: rest => some (.obj [], rest)
        | rest => do
          let (ms, rest) ← members? steps rest
          return (.obj ms, rest)
      else if c = 'n' then do return (.null, ← after? "ull".toList rest)
      else if c = 't' then do return (.bool true, ← after? "rue".toList rest)
      else if c = 'f' then do return (.bool false, ← after? "alse".toList rest)
      else do
        let (n, rest) ← numeral? (c :: rest)
        return (.num n, rest)

/-- The elements of an array, one at least, up to the closing bracket, and
the rest. -/
def items? (steps : Nat) (t : Text) : Option (List Tree × Text) :=
  match steps with
  | 0 => none
  | steps + 1 => do
    let (v, rest) ← value? steps t
    match skipGaps rest with
    | ',' :: rest =>
      let (vs, rest) ← items? steps rest
      return (v :: vs, rest)
    | ']' :: rest => return ([v], rest)
    | _ => none

/-- The members of an object, one at least, up to the closing brace, and
the rest. -/
def members? (steps : Nat) (t : Text) : Option (List (List Piece × Tree) × Text) :=
  match steps with
  | 0 => none
  | steps + 1 =>
    match skipGaps t with
    | '"' :: rest => do
      let (k, rest) ← pieces? rest
      match skipGaps rest with
      | ':' :: rest =>
        let (v, rest) ← value? steps rest
        match skipGaps rest with
        | ',' :: rest =>
          let (ms, rest) ← members? steps rest
          return ((k, v) :: ms, rest)
        | '\x7d' :: rest => return ([(k, v)], rest)
        | _ => none
      | _ => none
    | _ => none

end

/-- **The tree of a JSON text**, which holds one value and nothing else
but gaps. Every step but the one from an array to its first element
consumes a character, so twice the length suffices. -/
def read? (t : Text) : Option Tree := do
  let (v, rest) ← value? (2 * t.length + 2) t
  if (skipGaps rest).isEmpty then return v else none

end Tree

end DocQuery
