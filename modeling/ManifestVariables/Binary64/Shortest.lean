import ManifestVariables.Binary64.Basic

/-!
# Shortest decimal text

`Binary64.shortest` finds the fewest decimal digits that read back as the same
number. The reals that read back as a number form an interval around it, whose
ends belong to it exactly when the significand is even. For one digit, two
digits and so on the two neighbours of the number on that decimal grid are
tested; the first grid with a hit wins, and of two hits the nearer one.
-/

namespace ManifestVariables

/-- The number `digits · 10 ^ exponent`. -/
structure Decimal where
  digits : Nat
  exponent : Int
deriving DecidableEq, Repr, Inhabited

namespace Binary64

/-- The places after the point of the first digit of a magnitude below one, given
in units of `2 ^ -1074`; at most `fuel` places are tried. -/
def leadingPlace (units : Nat) : Nat → Nat → Nat
  | 0, place => place
  | fuel + 1, place =>
    if Nat.pow 2 1074 ≤ units * Nat.pow 10 place then place
    else leadingPlace units fuel (place + 1)

/-- The power of ten of the first digit of a positive magnitude. -/
def leadingExponent (units : Nat) : Int :=
  let whole := units / Nat.pow 2 1074
  if whole = 0 then -(leadingPlace units 330 1 : Int)
  else decimalLength whole - 1

/-- The interval of reals that read back as one number, and the number itself, in
units of `2 ^ -1076`. -/
structure Neighbourhood where
  low : Nat
  middle : Nat
  high : Nat
  closed : Bool

/-- The neighbourhood of a magnitude: half a step to either side, and a quarter
below a power of two, where the step below is half as long. -/
def neighbourhood (x : Binary64) : Neighbourhood :=
  let step := Nat.pow 2 x.scale
  let below := if x.significand = Nat.pow 2 52 ∧ 0 < x.scale then 1 else 2
  { low := (4 * x.significand - below) * step
    middle := 4 * x.significand * step
    high := (4 * x.significand + 2) * step
    closed := x.significand % 2 = 0 }

/-- The two sides of a comparison of `digits · 10 ^ exponent` with a count of
units of `2 ^ -1076`, both made whole. -/
def Decimal.sides (d : Decimal) (units : Nat) : Nat × Nat :=
  if d.exponent < 0 then (d.digits * Nat.pow 2 1076, units * Nat.pow 10 d.exponent.natAbs)
  else (d.digits * Nat.pow 10 d.exponent.natAbs * Nat.pow 2 1076, units)

/-- Whether a decimal lies in a neighbourhood. -/
def Neighbourhood.holds (n : Neighbourhood) (d : Decimal) : Bool :=
  let low := Decimal.sides d n.low
  let high := Decimal.sides d n.high
  if n.closed then low.2 ≤ low.1 && high.1 ≤ high.2
  else low.2 < low.1 && high.1 < high.2

/-- The hit of the grid of `10 ^ exponent`, if one of the two neighbours of the
number is a hit. -/
def Neighbourhood.onGrid? (n : Neighbourhood) (exponent : Int) : Option Decimal :=
  let unit := Decimal.sides ⟨1, exponent⟩ n.middle
  let below : Decimal := ⟨unit.2 / unit.1, exponent⟩
  let above : Decimal := ⟨unit.2 / unit.1 + 1, exponent⟩
  match n.holds below, n.holds above with
  | true, false => some below
  | false, true => some above
  | false, false => none
  | true, true =>
    let rest := 2 * (unit.2 % unit.1)
    if rest < unit.1 then some below
    else if unit.1 < rest then some above
    else if below.digits % 2 = 0 then some below else some above

/-- Moves trailing zeros of the digits into the exponent; `fuel` bounds their
number. -/
def trimZeros : Nat → Decimal → Decimal
  | 0, d => d
  | fuel + 1, d =>
    if d.digits ≠ 0 ∧ d.digits % 10 = 0 then trimZeros fuel ⟨d.digits / 10, d.exponent + 1⟩
    else d

/-- The fewest digits that read back as the magnitude of the number. -/
def shortest (x : Binary64) : Decimal :=
  if x.isZero then ⟨0, 0⟩
  else
    let n := x.neighbourhood
    let first := leadingExponent x.units
    match (List.range 17).findSome? fun (k : Nat) => n.onGrid? (first - k) with
    | some d => trimZeros 18 d
    | none => ⟨0, 0⟩

/-- How the exponent of a written number is marked. -/
inductive ExponentMark where
  /-- A positive exponent carries a plus sign, as in `1e+16`. -/
  | signed
  /-- A positive exponent carries no sign, as in `1e16`. -/
  | bare
deriving DecidableEq, Repr

/-- `count` zeros. -/
def zeros (count : Nat) : String :=
  String.ofList (List.replicate count '0')

/-- The magnitude of a decimal: positional when its first digit stands between
the fifth place after the point and the sixteenth before it, with an exponent
otherwise. A positional text always has a point. -/
def Decimal.text (mark : ExponentMark) (d : Decimal) : String :=
  let digits := Nat.toDigits 10 d.digits
  let count := digits.length
  let order : Int := d.exponent + count - 1
  if -5 ≤ order ∧ order ≤ 15 then
    if 0 ≤ d.exponent then
      String.ofList digits ++ zeros d.exponent.natAbs ++ ".0"
    else if 0 ≤ order then
      String.ofList (digits.take (order.natAbs + 1)) ++ "." ++
        String.ofList (digits.drop (order.natAbs + 1))
    else
      "0." ++ zeros (order.natAbs - 1) ++ String.ofList digits
  else
    let first := String.ofList (digits.take 1)
    let rest := if count ≤ 1 then "" else "." ++ String.ofList (digits.drop 1)
    let sign := if order < 0 then "-" else match mark with
      | .signed => "+"
      | .bare => ""
    first ++ rest ++ "e" ++ sign ++ toString order.natAbs

/-- The shortest text of a number. -/
def text (mark : ExponentMark) (x : Binary64) : String :=
  (if x.negative then "-" else "") ++
    (if x.isZero then "0.0" else Decimal.text mark x.shortest)

end Binary64

end ManifestVariables
