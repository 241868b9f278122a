namespace Coap.Text

/-!
# Reading bytes as text

Bytes are read as UTF-8. The strict reading exists only for well-formed bytes.
The lossy reading always exists: each maximal ill-formed part, that is, the
longest start of a well-formed sequence that breaks off, or one byte that starts
none, becomes one replacement character U+FFFD.
-/

/-- The UTF-8 bytes of a text. -/
def toBytes (text : String) : List UInt8 :=
  text.toUTF8.data.toList

/-- The text whose UTF-8 bytes these are, if they are well formed. -/
def ofBytes? (bytes : List UInt8) : Option String :=
  String.fromUTF8? ⟨bytes.toArray⟩

/-- What stands at the head of some bytes: a character, or an ill-formed part. -/
inductive Head where
  | char (value : Char) (width : Nat)
  | illFormed (width : Nat)
deriving DecidableEq, Repr

/-- Whether a byte continues a sequence. -/
def isContinuation (byte : UInt8) : Bool :=
  0x80 ≤ byte && byte ≤ 0xBF

/-- The payload bits of a continuation byte. -/
def continuationBits (byte : UInt8) : Nat :=
  byte.toNat % 64

/--
Whether `second` may follow `first` in a sequence of three or four bytes. The
narrower ranges exclude overlong forms, surrogates and values past U+10FFFF.
-/
def mayFollow (first second : UInt8) : Bool :=
  let low : UInt8 :=
    if first = 0xE0 then 0xA0 else if first = 0xF0 then 0x90 else 0x80
  let high : UInt8 :=
    if first = 0xED then 0x9F else if first = 0xF4 then 0x8F else 0xBF
  low ≤ second && second ≤ high

/-- Classify the head of `first :: rest`. -/
def head
    (first : UInt8)
    (rest : List UInt8) :
    Head :=
  if first < 0x80 then .char (Char.ofNat first.toNat) 1
  else if 0xC2 ≤ first && first ≤ 0xDF then
    match rest with
    | second :: _ =>
        if isContinuation second then
          .char (Char.ofNat (first.toNat % 32 * 64 + continuationBits second)) 2
        else .illFormed 1
    | [] => .illFormed 1
  else if 0xE0 ≤ first && first ≤ 0xEF then
    match rest with
    | second :: third :: _ =>
        if !mayFollow first second then .illFormed 1
        else if isContinuation third then
          .char
            (Char.ofNat
              (first.toNat % 16 * 4096 + continuationBits second * 64 +
                continuationBits third))
            3
        else .illFormed 2
    | [second] => if mayFollow first second then .illFormed 2 else .illFormed 1
    | [] => .illFormed 1
  else if 0xF0 ≤ first && first ≤ 0xF4 then
    match rest with
    | second :: third :: fourth :: _ =>
        if !mayFollow first second then .illFormed 1
        else if !isContinuation third then .illFormed 2
        else if isContinuation fourth then
          .char
            (Char.ofNat
              (first.toNat % 8 * 262144 + continuationBits second * 4096 +
                continuationBits third * 64 + continuationBits fourth))
            4
        else .illFormed 3
    | [second, third] =>
        if !mayFollow first second then .illFormed 1
        else if isContinuation third then .illFormed 3
        else .illFormed 2
    | [second] => if mayFollow first second then .illFormed 2 else .illFormed 1
    | [] => .illFormed 1
  else .illFormed 1

/-- The replacement character. -/
def replacement : Char :=
  '\uFFFD'

/-- The characters of the lossy reading. -/
def lossyChars : List UInt8 → List Char
  | [] => []
  | first :: rest =>
      match head first rest with
      | .char value width => value :: lossyChars (rest.drop (width - 1))
      | .illFormed width => replacement :: lossyChars (rest.drop (width - 1))
termination_by bytes => bytes.length
decreasing_by
  all_goals
    simp only [List.length_drop, List.length_cons]
    omega

/-- The lossy reading. -/
def lossy (bytes : List UInt8) : String :=
  String.ofList (lossyChars bytes)

end Coap.Text
