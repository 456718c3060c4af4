/-!
# Finite binary64 numbers

A number of 64 bits is kept as its sign and the word of its exponent and
fraction fields. The field `finite` says that the word is below the infinities,
so neither an infinity nor a value that is no number can be built. All
arithmetic is on natural numbers: a word stands for `significand · 2 ^ scale`
units of `2 ^ -1074`.
-/

namespace ManifestVariables

/-- The words from here on are infinities and values that are no numbers. -/
def Binary64.limit : Nat := 2047 * Nat.pow 2 52

/-- A finite number of 64 bits. -/
structure Binary64 where
  negative : Bool
  word : Nat
  finite : word < Binary64.limit
deriving DecidableEq

namespace Binary64

/-- Zero with the given sign. -/
def zero (negative : Bool) : Binary64 :=
  ⟨negative, 0, by decide⟩

instance : Inhabited Binary64 := ⟨zero false⟩

/-- The integer factor of the magnitude; words with an empty exponent field have
no leading one. -/
def significand (x : Binary64) : Nat :=
  if x.word < Nat.pow 2 52 then x.word else Nat.pow 2 52 + x.word % Nat.pow 2 52

/-- The power of two of the magnitude, counted from the smallest unit. -/
def scale (x : Binary64) : Nat :=
  x.word / Nat.pow 2 52 - 1

/-- The magnitude in units of `2 ^ -1074`. -/
def units (x : Binary64) : Nat :=
  x.significand * Nat.pow 2 x.scale

/-- Whether the number is zero, of either sign. -/
def isZero (x : Binary64) : Bool :=
  x.word = 0

/-- Equality of numbers: the two zeros are equal. -/
def same (x y : Binary64) : Bool :=
  (x.isZero && y.isZero) || (x.negative == y.negative && x.word == y.word)

/-- The quotient rounded to the nearest integer, a half to the even neighbour. -/
def roundQuotient (num den : Nat) : Nat :=
  let whole := num / den
  let twice := 2 * (num % den)
  if twice < den then whole
  else if den < twice then whole + 1
  else whole + whole % 2

/-- The number nearest to `num / den`, a half to the even neighbour; `none` when
it would be infinite. -/
def ofRatio? (negative : Bool) (num den : Nat) : Option Binary64 :=
  let scaled := num * Nat.pow 2 1074
  let shift := (scaled / den).log2 - 52
  let word := shift * Nat.pow 2 52 + roundQuotient scaled (den * Nat.pow 2 shift)
  if h : word < limit then some ⟨negative, word, h⟩ else none

/-- How many decimal digits a natural number has. -/
def decimalLength (n : Nat) : Nat :=
  (Nat.toDigits 10 n).length

/-- The number nearest to `digits · 10 ^ exponent`; `none` when it would be
infinite. Exponents that no digit can bring back into range are settled without
computing the power. -/
def ofDecimal? (negative : Bool) (digits : Nat) (exponent : Int) : Option Binary64 :=
  if digits = 0 then some (zero negative)
  else
    let order := exponent + decimalLength digits
    if order > 400 then none
    else if order < -400 then some (zero negative)
    else if exponent < 0 then ofRatio? negative digits (Nat.pow 10 exponent.natAbs)
    else ofRatio? negative (digits * Nat.pow 10 exponent.natAbs) 1

end Binary64

end ManifestVariables
