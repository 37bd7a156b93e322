import VirtualFs.Decimal
import VirtualFs.Json.Token

namespace VirtualFs.Json

/-- A number as a program sees it: an integer of 64 bits with or without a sign, or a double. -/
inductive Number where
  | integer (value : Int)
  | float (value : Float)

namespace Number

def text : Number → String
  | integer value => toString value
  | float value => Decimal.text value

def powerOfTen (exponent : Nat) : Float :=
  Float.ofScientific 1 false exponent

/-- Divide by a power of ten, in steps where the power itself is out of range. -/
def scaleDown (value : Float) (exponent : Nat) : Float :=
  if exponent ≤ 308 then value / powerOfTen exponent
  else if value == 0 then value
  else scaleDown (value / powerOfTen 308) (exponent - 308)
termination_by exponent

/-- Multiply by a power of ten unless that leaves the range. -/
def scaleUp? (value : Float) (exponent : Nat) : Option Float :=
  if exponent ≤ 308 then
    let scaled := value * powerOfTen exponent
    if scaled.isInf then none else some scaled
  else if value == 0 then some value
  else none

/-- A double from its leading digits and a power of ten. The digits are rounded to a double before
    they are scaled, so the last place may differ from that of the nearest double. -/
def ofParts? (negative : Bool) (significand : Nat) (exponent : Int) : Option Number :=
  let value := Float.ofNat significand
  let scaled? :=
    if 0 ≤ exponent then scaleUp? value exponent.toNat
    else some (scaleDown value exponent.natAbs)
  scaled?.map (fun scaled => float (if negative then -scaled else scaled))

def digitValue (c : Char) : Nat :=
  c.toNat - '0'.toNat

/-- Take in digits while the integer they form has 64 bits. The rest is returned. -/
def gather (significand : Nat) : List Char → Nat × List Char
  | [] => (significand, [])
  | c :: rest =>
    let next := significand * 10 + digitValue c
    if next < 0x10000000000000000 then gather next rest else (significand, c :: rest)

/-- The value of a written exponent, if it has 32 bits with its sign. -/
def exponentValue? (digits : List Char) : Option Nat :=
  let value := digits.foldl (fun value c => value * 10 + digitValue c) 0
  if value < 0x80000000 then some value else none

/-- The number that a numeral stands for. Digits of the whole part that do not fit count as places,
    digits of the fraction that do not fit are passed over. An integer with its sign out of range
    becomes a double; a double out of range is no number. -/
def ofNumeral? (numeral : Numeral) : Option Number :=
  let (whole, surplus) := gather 0 numeral.whole
  match surplus, numeral.fraction, numeral.exponent with
  | [], none, none =>
    if numeral.negative then
      if whole = 0 ∨ 0x8000000000000000 < whole then some (float (-(Float.ofNat whole)))
      else some (integer (-whole))
    else some (integer whole)
  | surplus, fraction, exponent =>
    let digits := fraction.getD []
    let (significand, unused) := gather whole digits
    let places : Int := surplus.length - (digits.length - unused.length : Nat)
    match exponent with
    | none => ofParts? numeral.negative significand places
    | some (negative, digits) =>
      match exponentValue? digits with
      | some value =>
        ofParts? numeral.negative significand (places + if negative then -(value : Int) else value)
      | none =>
        if significand ≠ 0 ∧ !negative then none
        else some (float (if numeral.negative then -0.0 else 0.0))

end Number

end VirtualFs.Json
