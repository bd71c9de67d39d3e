import DocQuery.Text.Basic
/-!
# Finite doubles

A finite IEEE double is a sign and the rank of its magnitude among the
finite magnitudes in increasing order: rank 0 is zero, rank 1 the least
subnormal, and the last rank below `rankCount` the greatest double. The
rank is the double's bit pattern without the sign, so neighbouring
doubles have neighbouring ranks. Every finite magnitude is a whole
multiple of `2 ^ -1074`, and `units` is that multiple: all arithmetic on
doubles in this library is arithmetic on these natural numbers.
-/

namespace DocQuery

/-- A power of two. -/
abbrev twoTo (k : Nat) : Nat := Nat.pow 2 k

/-- A power of ten. -/
abbrev tenTo (k : Nat) : Nat := Nat.pow 10 k

/-- The number of finite magnitudes. -/
abbrev Binary64.rankCount : Nat := 2047 * twoTo 52

/-- A finite double. The two zeros are different doubles. -/
structure Binary64 where
  /-- Whether the sign bit is set. -/
  negative : Bool
  /-- How many finite magnitudes are smaller. -/
  rank : Nat
  /-- The magnitude is finite. -/
  rank_lt : rank < Binary64.rankCount
deriving DecidableEq

namespace Binary64

/-- Zero of either sign. -/
def zero (negative : Bool) : Binary64 := ⟨negative, 0, by decide⟩

/-- Whether a double is one of the two zeros. -/
def isZero (x : Binary64) : Bool := x.rank == 0

/-- The same magnitude with the other sign. -/
def neg (x : Binary64) : Binary64 := { x with negative := !x.negative }

/-- The power of two that the spacing at this magnitude is above the
least spacing. The subnormals and the first normal binade share the least
one. -/
def scale (x : Binary64) : Nat := x.rank / twoTo 52 - 1

/-- The magnitude in steps of the spacing at this magnitude. -/
def significand (x : Binary64) : Nat := x.rank - x.scale * twoTo 52

/-- The denominator that all finite doubles share. -/
abbrev unit : Nat := twoTo 1074

/-- **The magnitude as a multiple of `2 ^ -1074`.** -/
def units (x : Binary64) : Nat := x.significand * twoTo x.scale

/-- The magnitude without its fraction. -/
def trunc (x : Binary64) : Nat := x.units / unit

/-- Whether the magnitude has no fraction. -/
def isIntegral (x : Binary64) : Bool := x.units % unit == 0

end Binary64

/-! ## Rounding to the nearest double

`ofQuotient?` rounds the quotient of two natural numbers to the nearest
finite double, ties to even, and fails where the nearest is out of range.
The rank of the result comes in one formula, `nearestRank`: once the
spacing `2 ^ s` at the quotient's magnitude is known, the rank is
`s * 2 ^ 52` plus the quotient in steps of that spacing, and a quotient
that rounds up into the next binade lands on the right rank of itself.
Products, quotients and decimal numbers are all rounded through it, so
each is its exact result rounded once. -/

/-- The quotient rounded to the nearest integer, a half to the even
neighbour. -/
def roundHalfEven (num den : Nat) : Nat :=
  let q := num / den
  let r := num % den
  if 2 * r < den then q
  else if den < 2 * r then q + 1
  else q + q % 2

namespace Binary64

/-- The spacing of doubles at the magnitude of `n / den` units, as a power
of two: the least at which the quotient has at most 53 bits. -/
def spacing (n den : Nat) : Nat := (n / den).log2 - 52

/-- The rank of the double nearest to a quotient, were the ranks
unbounded. -/
def nearestRank (num den : Nat) : Nat :=
  let n := num * unit
  let s := spacing n den
  s * twoTo 52 + roundHalfEven n (den * twoTo s)

/-- **The nearest double to a quotient**, or nothing when that is beyond
the greatest finite one. -/
def ofQuotient? (negative : Bool) (num den : Nat) : Option Binary64 :=
  if h : nearestRank num den < rankCount then some ⟨negative, nearestRank num den, h⟩ else none

/-- The nearest double to an integer. -/
def ofInt? (i : Int) : Option Binary64 := ofQuotient? (i < 0) i.natAbs 1

/-- The product, rounded once. -/
def mul? (x y : Binary64) : Option Binary64 :=
  ofQuotient? (x.negative != y.negative) (x.units * y.units) (unit * unit)

/-- The quotient by a double other than zero, rounded once. -/
def div? (x y : Binary64) : Option Binary64 :=
  ofQuotient? (x.negative != y.negative) x.units y.units

/-- The nearest double to `digits * 10 ^ exponent`. An exponent so large
or so small that the result is out of range or zero is settled without
the power of ten: `2 ^ 3 ≤ 10`, the greatest double is below `2 ^ 1024`,
and all below half of `2 ^ -1074` is zero. -/
def ofDecimal? (negative : Bool) (digits : Nat) (exponent : Int) : Option Binary64 :=
  if digits = 0 then some (zero negative)
  else if 1024 ≤ 3 * exponent then none
  else if digits.log2 + 1076 + 3 * exponent ≤ 0 then some (zero negative)
  else if 0 ≤ exponent then ofQuotient? negative (digits * tenTo exponent.toNat) 1
  else ofQuotient? negative digits (tenTo (-exponent).toNat)

end Binary64

/-! ## The shortest decimal of a double

A double lies between two neighbouring points of every decimal grid
`10 ^ g`. `shortest` walks from a coarse grid, where no point rounds to
the double, to finer ones and stops at the first with a neighbour that
rounds back to it; where both neighbours do, the nearer is taken, and the
even one of two equally near. Coarsest grid means fewest digits. The walk
ends at the latest on the grid `10 ^ -1074`, on which every double lies,
and every step tests the candidate by reading it, so the result reads
back by construction. -/

/-- The decimal number `digits * 10 ^ exponent`. -/
structure Decimal where
  /-- The digits, as one number. -/
  digits : Nat
  /-- The power of ten that the last digit counts. -/
  exponent : Int
deriving DecidableEq

namespace Binary64

/-- The magnitude in steps of `10 ^ exponent`, as numerator and
denominator. -/
def onGrid (x : Binary64) (exponent : Int) : Nat × Nat :=
  if 0 ≤ exponent then (x.units, unit * tenTo exponent.toNat)
  else (x.units * tenTo (-exponent).toNat, unit)

/-- Whether a decimal number of the double's own sign reads as the
double. -/
def readsBack (x : Binary64) (digits : Nat) (exponent : Int) : Bool :=
  ofDecimal? x.negative digits exponent == some x

/-- The point of a grid that reads back as the double, if one of its two
neighbours there does. -/
def gridPoint? (x : Binary64) (exponent : Int) : Option Nat :=
  let (num, den) := x.onGrid exponent
  let low := num / den
  match x.readsBack low exponent, x.readsBack (low + 1) exponent with
  | true, true => some (roundHalfEven num den)
  | true, false => some low
  | false, true => some (low + 1)
  | false, false => none

/-- The first hit among a number of grids, each ten times finer than the
one before; after them, the double itself on the grid reached. -/
def firstGridPoint (x : Binary64) : Nat → Int → Decimal
  | 0, g => ⟨(x.onGrid g).1 / (x.onGrid g).2, g⟩
  | grids + 1, g =>
    match x.gridPoint? g with
    | some d => ⟨d, g⟩
    | none => firstGridPoint x grids (g - 1)

/-- **The shortest decimal that reads back as the double**, the nearest of
that length. The walk starts on a grid wider than the magnitude. -/
def shortest (x : Binary64) : Decimal :=
  let wide := (Text.ofNat x.trunc).length
  firstGridPoint x (wide + 1074) wide

/-! ## How a double is written

The shortest decimal of a double, laid out as JSON numbers are in this
library: positional while the leading digit counts a power of ten from
`10 ^ -5` up to `10 ^ 15`, with one fractional digit at least, and
otherwise one digit before the point and a signed exponent. The spelling
always holds a point or an exponent, so it is never the spelling of an
integer. -/

/-- The least power of ten that a leading digit of a positional spelling
counts. -/
abbrev leastPositional : Int := -5

/-- The least power of ten that is too large for a positional spelling. -/
abbrev leastExponential : Int := 16

/-- Digits with the point after the one that counts units: `k` is the
power of ten that the first digit counts. -/
def positional (digits : Text) (k : Int) : Text :=
  if k < 0 then
    '0' :: '.' :: (List.replicate (-k - 1).toNat '0' ++ digits)
  else if (digits.length : Int) ≤ k + 1 then
    digits ++ List.replicate (k.toNat + 1 - digits.length) '0' ++ ['.', '0']
  else
    digits.take (k.toNat + 1) ++ '.' :: digits.drop (k.toNat + 1)

/-- Digits with the point after the first, and the power of ten that the
first counts. -/
def exponential (digits : Text) (k : Int) : Text :=
  let mantissa := match digits with
    | first :: second :: rest => first :: '.' :: second :: rest
    | short => short
  mantissa ++ 'e' :: (if k < 0 then '-' else '+') :: Text.ofNat k.natAbs

/-- A decimal number, in the layout that its magnitude asks for. -/
def layout (d : Decimal) : Text :=
  let digits := Text.ofNat d.digits
  let k := d.exponent + digits.length - 1
  if leastPositional ≤ k ∧ k < leastExponential then positional digits k
  else exponential digits k

/-- **The spelling of a double.** Zero keeps its sign. -/
def spelling (x : Binary64) : Text :=
  let magnitude := if x.isZero then ['0', '.', '0'] else layout x.shortest
  if x.negative then '-' :: magnitude else magnitude

end Binary64

end DocQuery
