import Coap.Address.Parser
import Coap.Toml.Document
import Coap.Toml.Text

namespace Coap.Toml

/-!
# Reading documents

A document is read line by line: blank lines, comments, table headers in square
brackets, and assignments. Keys are bare or quoted and may be dotted. Values are
integers of 64 bits, floating-point numbers in double precision, booleans and
quoted text.
-/

/-- Drop blanks. -/
def skipBlanks (chars : List Char) : List Char :=
  chars.dropWhile fun char => char == ' ' || char == '\t'

/-- A character of a bare key. -/
def isBareKeyChar (char : Char) : Bool :=
  char.isAlphanum || char == '_' || char == '-'

/-- Read one name of a key. -/
def readName? (chars : List Char) : Option (String × List Char) :=
  match chars with
  | '"' :: '"' :: '"' :: _ => none
  | '\'' :: '\'' :: '\'' :: _ => none
  | '"' :: _ | '\'' :: _ =>
      (readQuoted? chars).map fun result => (String.ofList result.1, result.2)
  | _ =>
      let name := chars.takeWhile isBareKeyChar
      if name = [] then none
      else some (String.ofList name, chars.dropWhile isBareKeyChar)

/-- The most names of a key. -/
def maxNames : Nat :=
  79

/-- Read names separated by points, at most `room` of them. -/
def readNames? :
    Nat →
    List Char →
    Option (Path × List Char)
  | 0, _ => none
  | room + 1, chars => do
      let (name, rest) ← readName? chars
      match skipBlanks rest with
      | '.' :: rest =>
          let (names, rest) ← readNames? room (skipBlanks rest)
          return (name :: names, rest)
      | rest => return ([name], rest)

/-- Read a key and the blanks after it. -/
def readKey? (chars : List Char) : Option (Path × List Char) :=
  readNames? maxNames chars

/-- Digits of a radix separated by single underscores. -/
def digits?
    (digit? : Char → Option Nat) :
    List Char →
    Option (List Nat)
  | [] => none
  | [char] => (digit? char).map fun value => [value]
  | char :: '_' :: rest => do
      let value ← digit? char
      let values ← digits? digit? rest
      return value :: values
  | char :: next :: rest => do
      let value ← digit? char
      let values ← digits? digit? (next :: rest)
      return value :: values

/-- The value of a digit below a radix. -/
def digitBelow?
    (radix : Nat)
    (char : Char) :
    Option Nat :=
  (Hex.valueOf? char).filter fun value => value < radix

/-- Decimal digits without a leading zero. -/
def decimal? (chars : List Char) : Option Nat := do
  let values ← digits? Address.decimalDigit? chars
  if values.head? = some 0 ∧ 1 < values.length then none
  return Address.ofDigits 10 values

/-- The sign in front of a number, if there is one, and the rest. -/
def splitSign : List Char → Option Bool × List Char
  | '+' :: rest => (some false, rest)
  | '-' :: rest => (some true, rest)
  | chars => (none, chars)

/-- An integer, of any size. -/
def integer? (chars : List Char) : Option Int :=
  let based (radix : Nat) (rest : List Char) : Option Int :=
    (digits? (digitBelow? radix) rest).map fun values =>
      (Address.ofDigits radix values : Int)
  match splitSign chars with
  | (none, '0' :: 'x' :: rest) => based 16 rest
  | (none, '0' :: 'o' :: rest) => based 8 rest
  | (none, '0' :: 'b' :: rest) => based 2 rest
  | (sign, rest) =>
      (decimal? rest).map fun value => if sign = some true then -(value : Int)
        else (value : Int)

/-- Split at the first character with a property. -/
def splitAt?
    (isMark : Char → Bool)
    (chars : List Char) :
    Option (List Char × List Char) :=
  match chars.dropWhile fun char => !isMark char with
  | [] => none
  | _ :: rest => some (chars.takeWhile fun char => !isMark char, rest)

/-- A magnitude in decimal notation: some digits times a power of ten. -/
structure Magnitude where
  digits : Nat
  exponent : Int
deriving DecidableEq, Repr

/-- The part of a floating-point number before its exponent. -/
def mantissa? (chars : List Char) : Option Magnitude :=
  match splitAt? (· == '.') chars with
  | none => (decimal? chars).map fun whole => ⟨whole, 0⟩
  | some (whole, part) => do
      let whole ← decimal? whole
      let part ← digits? Address.decimalDigit? part
      return ⟨whole * Nat.pow 10 part.length + Address.ofDigits 10 part,
        -(part.length : Int)⟩

/-- An exponent with or without a sign. -/
def exponent? (chars : List Char) : Option Int :=
  let (sign, rest) := splitSign chars
  (digits? Address.decimalDigit? rest).map fun values =>
    let value : Int := Address.ofDigits 10 values
    if sign = some true then -value else value

/-- A floating-point number in digits, without its sign. -/
def magnitude? (chars : List Char) : Option Magnitude :=
  match splitAt? (fun char => char == 'e' || char == 'E') chars with
  | some (mantissa, exponent) => do
      let magnitude ← mantissa? mantissa
      let exponent ← exponent? exponent
      return { magnitude with exponent := magnitude.exponent + exponent }
  | none => if '.' ∈ chars then mantissa? chars else none

/--
The least magnitude that rounds to infinity in double precision: 2^1024 less half
a unit in the last place of the numbers just below.
-/
def Magnitude.doubleBound : Nat :=
  18014398509481983 <<< 970

/--
Whether a magnitude rounds to infinity in double precision. The bound has 309
digits before the point; only a magnitude with as many has to be compared.
-/
def Magnitude.overflows (magnitude : Magnitude) : Bool :=
  let places : Int := (Nat.toDigits 10 magnitude.digits).length + magnitude.exponent
  if magnitude.digits = 0 ∨ places < 309 then false
  else if 309 < places then true
  else
    match magnitude.exponent with
    | .ofNat up => decide (doubleBound ≤ magnitude.digits * Nat.pow 10 up)
    | .negSucc down =>
        decide (doubleBound * Nat.pow 10 (down + 1) ≤ magnitude.digits)

/--
Whether this is a floating-point number. A positive one written in digits must
not round to infinity; a negative one may.
-/
def isFloat (chars : List Char) : Bool :=
  let (sign, rest) := splitSign chars
  if rest = ['i', 'n', 'f'] ∨ rest = ['n', 'a', 'n'] then true
  else
    match magnitude? rest with
    | none => false
    | some magnitude => sign = some true || !magnitude.overflows

/-- The value that a word without quotes spells. -/
def word? (chars : List Char) : Option Scalar :=
  if chars = ['t', 'r', 'u', 'e'] then some (.boolean true)
  else if chars = ['f', 'a', 'l', 's', 'e'] then some (.boolean false)
  else
    match integer? chars with
    | some value =>
        if -9223372036854775808 ≤ value ∧
            value ≤ 9223372036854775807 then some (.integer value)
        else none
    | none => if isFloat chars then some .float else none

/-- A character of a word without quotes. -/
def isWordChar (char : Char) : Bool :=
  char.isAlphanum || char == '_' || char == '-' || char == '+' || char == '.'

/-- Read a value. -/
def readValue? (chars : List Char) : Option (Scalar × List Char) :=
  match chars with
  | '"' :: _ | '\'' :: _ =>
      (readQuoted? chars).map fun result =>
        (.text (String.ofList result.1), result.2)
  | _ =>
      (word? (chars.takeWhile isWordChar)).map fun value =>
        (value, chars.dropWhile isWordChar)

/-- Pass the rest of a line: blanks, a comment, and the line break or the end. -/
def endLine? (chars : List Char) : Option (List Char) :=
  let afterComment :=
    match skipBlanks chars with
    | '#' :: rest => rest.dropWhile fun char => !isControl char
    | rest => rest
  match afterComment with
  | [] => some []
  | '\n' :: rest => some rest
  | '\r' :: '\n' :: rest => some rest
  | _ => none

/-- A document being read: what it holds, and the table that assignments go to. -/
structure Reading where
  document : Document := {}
  current : Path := []

/-- Read one line. -/
def readLine?
    (reading : Reading)
    (chars : List Char) :
    Option (Reading × List Char) :=
  match skipBlanks chars with
  | [] => some (reading, [])
  | '#' :: rest => (endLine? ('#' :: rest)).map fun rest => (reading, rest)
  | '\n' :: rest => some (reading, rest)
  | '\r' :: '\n' :: rest => some (reading, rest)
  | '[' :: rest => do
      let (path, rest) ← readKey? (skipBlanks rest)
      match rest with
      | ']' :: rest =>
          let document ← reading.document.declare? path
          return ({ document := document, current := path }, ← endLine? rest)
      | _ => none
  | rest => do
      let (key, rest) ← readKey? rest
      match rest with
      | '=' :: rest =>
          let (value, rest) ← readValue? (skipBlanks rest)
          let document ← reading.document.assign? reading.current key value
          return ({ reading with document := document }, ← endLine? rest)
      | _ => none

/-- Read lines, at most `room` of them. -/
def readLines? :
    Nat →
    Reading →
    List Char →
    Option Document
  | _, reading, [] => some reading.document
  | 0, _, _ => none
  | room + 1, reading, chars =>
      match readLine? reading chars with
      | none => none
      | some (reading, rest) => readLines? room reading rest

/-- Drop a byte order mark. -/
def dropOrderMark : List Char → List Char
  | '\ufeff' :: rest => rest
  | chars => chars

/-- The document a text spells; every line has at least one character. -/
def Document.ofText? (text : String) : Option Document :=
  let chars := dropOrderMark text.toList
  readLines? (chars.length + 1) {} chars

end Coap.Toml
