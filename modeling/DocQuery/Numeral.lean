import DocQuery.Binary64
/-!
# Numerals

A numeral is a decimal number as spelled: sign, digits on both sides of
the point, and an exponent. Spelling carries more than the number: `1`
and `1.0` are different numerals, and a JSON reader must tell them apart.
The file holds the exact readings, as an integer where the spelling is
one (`integer?`) and as the nearest double (`nearest?`), the reading in
bounded work that JSON numerals have (`scaled?`), and the splitting of a
text at the end of its digits that every reader of numerals shares.
-/

namespace DocQuery

/-- A decimal number as spelled. -/
structure Numeral where
  /-- Whether a minus sign leads. -/
  negative : Bool
  /-- The digits before the point. -/
  whole : Text
  /-- The digits after the point; empty where there is no point. -/
  fraction : Text
  /-- The power of ten behind `e`, if there is one. -/
  exponent : Option Int
deriving DecidableEq

namespace Numeral

/-- The digits a text begins with, and the rest. -/
def spanDigits (t : Text) : Text × Text := (t.takeWhile Char.isDigit, t.dropWhile Char.isDigit)

/-- Digits, one at least, and the rest. -/
def digits? (t : Text) : Option (Text × Text) :=
  match spanDigits t with
  | ([], _) => none
  | found => some found

/-- An exponent where the text has one, and the rest: `e` in either case,
a sign if wanted, and digits. An `e` without digits is refused. -/
def exponent? (t : Text) : Option (Option Int × Text) :=
  match t with
  | [] => some (none, [])
  | c :: rest =>
    if c = 'e' ∨ c = 'E' then
      match rest with
      | '-' :: rest => (digits? rest).map fun (ds, rest) => (some (-(Text.toNat ds : Int)), rest)
      | '+' :: rest => (digits? rest).map fun (ds, rest) => (some (Text.toNat ds : Int), rest)
      | rest => (digits? rest).map fun (ds, rest) => (some (Text.toNat ds : Int), rest)
    else some (none, c :: rest)

/-- The integer that a numeral without point and exponent spells. Minus
zero is no integer: its sign would be lost. -/
def integer? (n : Numeral) : Option Int :=
  if n.fraction.isEmpty && n.exponent.isNone then
    let magnitude : Int := Text.toNat n.whole
    if n.negative then
      if magnitude = 0 then none else some (-magnitude)
    else some magnitude
  else none

/-- **The double nearest to the spelled number**, or nothing when that is
out of range. -/
def nearest? (n : Numeral) : Option Binary64 :=
  Binary64.ofDecimal? n.negative (Text.toNat (n.whole ++ n.fraction))
    (n.exponent.getD 0 - n.fraction.length)

/-! ## The double of a JSON numeral

JSON numerals are read in bounded work: the digits are collected in a
64-bit significand, that is rounded to a double, and the double is
multiplied or divided by a rounded power of ten. The result rounds two or
three times, so it can miss the nearest double by a few steps (the
nearest to `4503599627370495.5` has a fraction, and this reading has
none). A numeral of at most 15 digits whose power of ten stays within 22
is rounded once and is exact. -/

/-- Appends digits to a significand while it stays below `2 ^ 64`. The
digits that are left over come second. -/
def collect (significand : Nat) : Text → Nat × Text
  | [] => (significand, [])
  | d :: rest =>
    let longer := significand * 10 + (d.toNat - '0'.toNat)
    if longer < UInt64.size then collect longer rest else (significand, d :: rest)

/-- The greatest power of ten that is a finite double. -/
abbrev greatestPower : Nat := 308

/-- A power of ten as a double. -/
def power? (k : Nat) : Option Binary64 := Binary64.ofQuotient? false (tenTo k) 1

/-- A double times a power of ten. A power too small for a double is
divided off in two steps, and what two steps do not reach is zero. -/
def timesPower? (x : Binary64) (e : Int) : Option Binary64 :=
  if x.isZero then some x
  else if (greatestPower : Int) < e then none
  else if 0 ≤ e then do x.mul? (← power? e.toNat)
  else if -(greatestPower : Int) ≤ e then do x.div? (← power? (-e).toNat)
  else if -(2 * greatestPower : Int) ≤ e then do
    let y ← x.div? (← power? greatestPower)
    y.div? (← power? ((-e).toNat - greatestPower))
  else some (Binary64.zero x.negative)

/-- **The double of a numeral by significand and power of ten.** Whole
digits that no longer fit the significand count in the exponent; fraction
digits that no longer fit are dropped. -/
def scaled? (n : Numeral) : Option Binary64 := do
  let (whole, uncounted) := collect 0 n.whole
  let (significand, dropped) := collect whole n.fraction
  let x ← Binary64.ofQuotient? n.negative significand 1
  timesPower? x
    (n.exponent.getD 0 + uncounted.length - (n.fraction.length - dropped.length : Nat))

end Numeral

end DocQuery
