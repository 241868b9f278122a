namespace Coap.Decimal

/-!
# Exact fractions, binary rounding and fixed places

A printed quantity passes through two roundings. First it becomes the nearest
number with a 53-bit significand, then that number is written with a fixed count
of decimal places. Both roundings go to the nearest candidate, and a tie goes to
the even one. All arithmetic is on natural numbers, so both are exact.
-/

/-- A non-negative fraction, which has no bound if its denominator is zero. -/
structure Fraction where
  numerator : Nat
  denominator : Nat
deriving DecidableEq, Repr

/-- The natural number nearest to a quotient, the even one at a tie. -/
def divRound (numerator denominator : Nat) : Nat :=
  let quotient := numerator / denominator
  let doubled := 2 * (numerator % denominator)
  if doubled < denominator then quotient
  else if denominator < doubled then quotient + 1
  else if quotient % 2 = 0 then quotient
  else quotient + 1

/-- A quotient times a power of two, negative exponents dividing. -/
def Fraction.scale
    (fraction : Fraction)
    (exponent : Int) :
    Fraction :=
  match exponent with
  | .ofNat up => ⟨fraction.numerator <<< up, fraction.denominator⟩
  | .negSucc down => ⟨fraction.numerator, fraction.denominator <<< (down + 1)⟩

/--
The power of two that brings a positive fraction into the range of 53-bit
significands, from 2^52 up to but not including 2^53.
-/
def Fraction.significandShift (fraction : Fraction) : Int :=
  let guess : Int :=
    52 - ((fraction.numerator.log2 : Int) - (fraction.denominator.log2 : Int))
  let scaled := fraction.scale guess
  if scaled.numerator < scaled.denominator <<< 52 then guess + 1 else guess

/--
The nearest fraction with a 53-bit significand. Magnitudes near the ends of the
exponent range of double precision do not occur here and are not treated apart.
-/
def Fraction.nearestBinary (fraction : Fraction) : Fraction :=
  if fraction.numerator = 0 then ⟨0, 1⟩
  else
    let shift := fraction.significandShift
    let scaled := fraction.scale shift
    Fraction.scale ⟨divRound scaled.numerator scaled.denominator, 1⟩ (-shift)

/-- The sum of two fractions. -/
def Fraction.add (first second : Fraction) : Fraction :=
  ⟨first.numerator * second.denominator + second.numerator * first.denominator,
    first.denominator * second.denominator⟩

/-- The quotient of two fractions, the second one not zero. -/
def Fraction.div (first second : Fraction) : Fraction :=
  ⟨first.numerator * second.denominator, first.denominator * second.numerator⟩

/-- The whole part of a fraction. -/
def Fraction.floor (fraction : Fraction) : Nat :=
  fraction.numerator / fraction.denominator

/--
A length of time given in nanoseconds, in seconds: whole seconds and their fraction,
each rounded to binary.
-/
def Fraction.seconds (nanos : Nat) : Fraction :=
  let whole := Fraction.nearestBinary ⟨nanos / 1000000000, 1⟩
  let part := Fraction.nearestBinary ⟨nanos % 1000000000, 1000000000⟩
  (whole.add part).nearestBinary

/-- Pad on the left with zeros to at least `width` characters. -/
def padZeros
    (width : Nat)
    (digits : List Char) :
    List Char :=
  List.replicate (width - digits.length) '0' ++ digits

/-- A natural number with at least `width` digits. -/
def natural
    (width value : Nat) :
    String :=
  String.ofList (padZeros width (Nat.toDigits 10 value))

/-- A fraction with exactly `places` decimal places, at least one of them. -/
def Fraction.fixed
    (fraction : Fraction)
    (places : Nat) :
    String :=
  let unit := Nat.pow 10 places
  let units := divRound (fraction.numerator * unit) fraction.denominator
  natural 1 (units / unit) ++ "." ++ natural places (units % unit)

/-- A fraction rounded to binary and then written with `places` decimal places. -/
def Fraction.display
    (fraction : Fraction)
    (places : Nat) :
    String :=
  if fraction.denominator = 0 then "inf" else fraction.nearestBinary.fixed places

/-- A fraction with a sign of its own, so that zero has one too. -/
structure Signed where
  negative : Bool := false
  magnitude : Fraction
deriving DecidableEq, Repr

/--
The sign and then the magnitude; a negative number that rounds to
zero keeps its sign.
-/
def Signed.display
    (number : Signed)
    (places : Nat) :
    String :=
  (if number.negative then "-" else "") ++ number.magnitude.display places

end Coap.Decimal
