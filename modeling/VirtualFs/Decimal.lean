namespace VirtualFs.Decimal

/-- A decimal number: an integer written in digits, times a power of ten. -/
structure Scaled where
  digits : Nat
  exponent : Int
deriving DecidableEq

/-- A fraction of natural numbers, used to compare exactly. -/
structure Ratio where
  num : Nat
  den : Nat

namespace Ratio

/-- `n` times a power of `base`. -/
def scaled (n base : Nat) (exponent : Int) : Ratio :=
  ⟨n * base.pow exponent.toNat, base.pow (-exponent).toNat⟩

def lt (a b : Ratio) : Bool :=
  a.num * b.den < b.num * a.den

/-- The distance between two fractions. -/
def dist (a b : Ratio) : Ratio :=
  ⟨(a.num * b.den - b.num * a.den) + (b.num * a.den - a.num * b.den), a.den * b.den⟩

end Ratio

/-- A finite binary floating-point number `mantissa * 2 ^ exponent` with the numbers that are read
    back as it: those between `low` and `high`, the ends included iff the mantissa is even. -/
structure Binary where
  mantissa : Nat
  exponent : Int
  low : Ratio
  high : Ratio

namespace Binary

/-- Take the bits of a finite double apart. The step down from a power of two is half as wide as
    the step up. -/
def ofBits (bits : UInt64) : Binary :=
  let field := (bits >>> 52).toNat % 2048
  let fraction := bits.toNat % 0x10000000000000
  let mantissa := if field = 0 then fraction else fraction + 0x10000000000000
  let exponent : Int := if field = 0 then -1074 else field - 1075
  let below := if fraction = 0 && field > 1 then 1 else 2
  ⟨mantissa, exponent, .scaled (4 * mantissa - below) 2 (exponent - 2),
    .scaled (4 * mantissa + 2) 2 (exponent - 2)⟩

def value (x : Binary) : Ratio :=
  .scaled x.mantissa 2 x.exponent

/-- Whether a number is read back as `x`. -/
def covers (x : Binary) (r : Ratio) : Bool :=
  if x.mantissa % 2 = 0 then !r.lt x.low && !x.high.lt r else x.low.lt r && r.lt x.high

/-- The place of the first digit: the least power of ten above the value. -/
def magnitude (x : Binary) : Int :=
  let whole := x.value.num / x.value.den
  if whole ≠ 0 then (Nat.toDigits 10 whole).length
  else
    let reaches (zeros : Nat) : Bool := x.value.den ≤ x.value.num * Nat.pow 10 (zeros + 1)
    match (List.range 400).find? reaches with
    | some zeros => -(zeros : Int)
    | none => 0

/-- The better of the two neighbours of `x` on the grid with the given number of digits, if one is
    read back as `x`. A tie goes to the even digit. -/
def onGrid? (x : Binary) (digits : Nat) : Option Scaled :=
  let exponent := x.magnitude - digits
  let unit := Ratio.scaled 1 10 exponent
  let floor := (x.value.num * unit.den) / (x.value.den * unit.num)
  let place (n : Nat) := Ratio.scaled n 10 exponent
  match x.covers (place floor), x.covers (place (floor + 1)) with
  | true, false => some ⟨floor, exponent⟩
  | false, true => some ⟨floor + 1, exponent⟩
  | false, false => none
  | true, true =>
    let down := x.value.dist (place floor)
    let up := x.value.dist (place (floor + 1))
    if down.lt up then some ⟨floor, exponent⟩
    else if up.lt down then some ⟨floor + 1, exponent⟩
    else if floor % 2 = 0 then some ⟨floor, exponent⟩
    else some ⟨floor + 1, exponent⟩

/-- The fewest digits that are read back as `x`, and of those the nearest. Seventeen always do. -/
def shortest (x : Binary) : Scaled :=
  ((List.range 17).findSome? (fun fewer => x.onGrid? (fewer + 1))).getD ⟨0, 0⟩

end Binary

/-- How digits are laid out. The notation is positional while the point stands more than `lowest`
    and at most `highest` places behind the front of the digits, and has an exponent otherwise. -/
structure Layout where
  lowest : Int
  highest : Int

/-- Positional notation from 1e-5 up to below 1e16. -/
def plainLayout : Layout := ⟨-5, 16⟩

def zeros (count : Int) : List Char :=
  List.replicate count.toNat '0'

/-- Write a positive number. A whole number keeps one zero after the point, and an exponent has a
    sign. -/
def Layout.write (layout : Layout) (x : Scaled) : List Char :=
  let all := Nat.toDigits 10 x.digits
  let digits := (all.reverse.dropWhile (· = '0')).reverse
  let point : Int := x.exponent + all.length
  if layout.lowest < point ∧ point ≤ 0 then
    "0.".toList ++ zeros (-point) ++ digits
  else if 0 < point ∧ point ≤ layout.highest then
    if digits.length ≤ point then digits ++ zeros (point - digits.length) ++ ".0".toList
    else digits.take point.toNat ++ '.' :: digits.drop point.toNat
  else
    let exponent := point - 1
    let sign := if exponent < 0 then '-' else '+'
    let tail := 'e' :: sign :: Nat.toDigits 10 exponent.natAbs
    match digits with
    | [first] => first :: tail
    | first :: rest => first :: '.' :: rest ++ tail
    | [] => []

/-- The text of a finite double: its sign and the fewest digits that are read back as it. -/
def text (x : Float) : String :=
  let bits := x.toBits
  let sign := if bits >>> 63 = 0 then [] else ['-']
  if bits <<< 1 = 0 then String.ofList (sign ++ "0.0".toList)
  else String.ofList (sign ++ plainLayout.write (Binary.ofBits bits).shortest)

end VirtualFs.Decimal
