import Coap.Address.Parser
import Coap.Decimal.Rounding

namespace Coap.Decimal

/-!
# Reading numerals

A numeral is a number in digits, such as `-12.5e-3`. Its digits make a natural
number of at most 64 bits, its point and its exponent make a power of ten. Each of
the two becomes the nearest binary number before one multiplies or divides the
other, and so does the result. With more than fifteen digits this may lie one
binary place beside the number nearest to the numeral.
-/

/--
Digits taken up as a natural number, and the power of ten that it
is to be scaled by.
-/
structure Numeral where
  significand : Nat := 0
  exponent : Int := 0
deriving DecidableEq, Repr

namespace Numeral

/-- The bound of significands, which have 64 bits. -/
def bound : Nat :=
  18446744073709551616

/--
Take up digits before the point. From the first one that leads to the bound, each
of them only raises the exponent.
-/
def takeWhole
    (numeral : Numeral) :
    List Nat →
    Numeral
  | [] => numeral
  | digit :: rest =>
      let significand := numeral.significand * 10 + digit
      if significand < bound then
        takeWhole { numeral with significand := significand } rest
      else
        { numeral with exponent := numeral.exponent + (rest.length + 1) }

/--
Take up digits after the point, each of which lowers the exponent. From the first
one that leads to the bound, they are dropped.
-/
def takePart
    (numeral : Numeral) :
    List Nat →
    Numeral
  | [] => numeral
  | digit :: rest =>
      let significand := numeral.significand * 10 + digit
      if significand < bound then
        takePart
          { significand := significand, exponent := numeral.exponent - 1 } rest
      else
        numeral

/-- The binary number that a numeral without its sign is read as. -/
def value (numeral : Numeral) : Fraction :=
  let significand := Fraction.nearestBinary ⟨numeral.significand, 1⟩
  let power := Fraction.nearestBinary ⟨Nat.pow 10 numeral.exponent.natAbs, 1⟩
  if 0 ≤ numeral.exponent then
    Fraction.nearestBinary
      ⟨significand.numerator * power.numerator,
        significand.denominator * power.denominator⟩
  else
    Fraction.nearestBinary
      ⟨significand.numerator * power.denominator,
        significand.denominator * power.numerator⟩

/-- Read decimal digits, at least one, and the rest. -/
def readDigits? (chars : List Char) : Option (List Nat × List Char) :=
  match Address.spanDigits Address.decimalDigit? chars with
  | ([], _) => none
  | found => some found

/-- Read a point and the digits after it, if there is a point. -/
def readPart?
    (numeral : Numeral)
    (chars : List Char) :
    Option (Numeral × List Char) :=
  match chars with
  | '.' :: rest =>
      (readDigits? rest).map fun (digits, rest) => (numeral.takePart digits, rest)
  | _ => some (numeral, chars)

/-- Read the digits of an exponent and add them, or take them away. -/
def readPower?
    (numeral : Numeral)
    (negative : Bool)
    (chars : List Char) :
    Option (Numeral × List Char) :=
  (readDigits? chars).map fun (digits, rest) =>
    let power : Int := Address.ofDigits 10 digits
    let exponent :=
      if negative then numeral.exponent - power else numeral.exponent + power
    ({ numeral with exponent := exponent }, rest)

/-- Read an exponent, if there is one. -/
def readExponent?
    (numeral : Numeral)
    (chars : List Char) :
    Option (Numeral × List Char) :=
  match chars with
  | 'e' :: '-' :: rest | 'E' :: '-' :: rest => numeral.readPower? true rest
  | 'e' :: '+' :: rest | 'E' :: '+' :: rest => numeral.readPower? false rest
  | 'e' :: rest | 'E' :: rest => numeral.readPower? false rest
  | _ => some (numeral, chars)

/-- Read a numeral without its sign, and the rest. -/
def read? (chars : List Char) : Option (Numeral × List Char) := do
  let (digits, rest) ← readDigits? chars
  let (numeral, rest) ← readPart? (takeWhole {} digits) rest
  numeral.readExponent? rest

end Numeral

/-- Read a number with or without a minus sign, and the rest. -/
def Signed.read? (chars : List Char) : Option (Signed × List Char) :=
  match chars with
  | '-' :: rest =>
      (Numeral.read? rest).map fun (numeral, rest) =>
        ({ negative := true, magnitude := numeral.value }, rest)
  | _ =>
      (Numeral.read? chars).map fun (numeral, rest) =>
        ({ magnitude := numeral.value }, rest)

end Coap.Decimal
