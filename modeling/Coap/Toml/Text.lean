import Coap.Text.Hex

namespace Coap.Toml

/-!
# Quoted text

Text is written between quotes in one of four ways: basic text has escapes,
literal text has none, and each may extend over several lines between triple
quotes. Printing takes the plainest way that needs no escapes, and basic text
with escapes if there is none.
-/

/-- A character that only an escape can put into text. -/
def isControl (char : Char) : Bool :=
  (char.toNat < 0x20 && char != '\t') || char.toNat == 0x7F

/-- The character that a short escape stands for. -/
def shortEscape? : Char → Option Char
  | 'b' => some '\x08'
  | 't' => some '\t'
  | 'n' => some '\n'
  | 'f' => some '\x0c'
  | 'r' => some '\r'
  | '"' => some '"'
  | '\\' => some '\\'
  | _ => none

/-- The character whose code some hexadecimal digits spell. -/
def longEscape? (digits : List Char) : Option Char := do
  let values ← digits.mapM Hex.valueOf?
  let code := values.foldl (fun code value => code * 16 + value) 0
  if code.isValidChar then return Char.ofNat code else none

/-- Put characters in front of what a reader found. -/
def prepend
    (chars : List Char)
    (found : Option (List Char × List Char)) :
    Option (List Char × List Char) :=
  found.map fun result => (chars ++ result.1, result.2)

/--
Read basic text up to its closing quote or triple quote; the text and the rest.
Only text between triple quotes may contain line breaks and single quotes.
-/
def readBasic?
    (multiline : Bool) :
    List Char →
    Option (List Char × List Char)
  | [] => none
  | '\\' :: 'u' :: a :: b :: c :: d :: rest =>
      (longEscape? [a, b, c, d]).bind fun char =>
        prepend [char] (readBasic? multiline rest)
  | '\\' :: 'U' :: a :: b :: c :: d :: e :: f :: g :: h :: rest =>
      (longEscape? [a, b, c, d, e, f, g, h]).bind fun char =>
        prepend [char] (readBasic? multiline rest)
  | '\\' :: char :: rest =>
      (shortEscape? char).bind fun char =>
        prepend [char] (readBasic? multiline rest)
  | '"' :: '"' :: '"' :: '"' :: '"' :: rest =>
      if multiline then some (['"', '"'], rest)
      else some ([], '"' :: '"' :: '"' :: '"' :: rest)
  | '"' :: '"' :: '"' :: '"' :: rest =>
      if multiline then some (['"'], rest) else some ([], '"' :: '"' :: '"' :: rest)
  | '"' :: '"' :: '"' :: rest =>
      if multiline then some ([], rest) else some ([], '"' :: '"' :: rest)
  | '"' :: rest =>
      if multiline then prepend ['"'] (readBasic? multiline rest)
      else some ([], rest)
  | '\r' :: '\n' :: rest =>
      if multiline then prepend ['\n'] (readBasic? multiline rest) else none
  | char :: rest =>
      if isControl char && !(multiline && char == '\n') then none
      else prepend [char] (readBasic? multiline rest)

/--
Read literal text up to its closing quote or triple quote; the text and the rest.
-/
def readLiteral?
    (multiline : Bool) :
    List Char →
    Option (List Char × List Char)
  | [] => none
  | '\'' :: '\'' :: '\'' :: '\'' :: '\'' :: rest =>
      if multiline then some (['\'', '\''], rest)
      else some ([], '\'' :: '\'' :: '\'' :: '\'' :: rest)
  | '\'' :: '\'' :: '\'' :: '\'' :: rest =>
      if multiline then some (['\''], rest)
      else some ([], '\'' :: '\'' :: '\'' :: rest)
  | '\'' :: '\'' :: '\'' :: rest =>
      if multiline then some ([], rest) else some ([], '\'' :: '\'' :: rest)
  | '\'' :: rest =>
      if multiline then prepend ['\''] (readLiteral? multiline rest)
      else some ([], rest)
  | '\r' :: '\n' :: rest =>
      if multiline then prepend ['\n'] (readLiteral? multiline rest) else none
  | char :: rest =>
      if isControl char && !(multiline && char == '\n') then none
      else prepend [char] (readLiteral? multiline rest)

/-- Drop the line break right after an opening triple quote. -/
def dropLineBreak : List Char → List Char
  | '\n' :: rest => rest
  | '\r' :: '\n' :: rest => rest
  | chars => chars

/-- Read quoted text of any kind that starts here. -/
def readQuoted? : List Char → Option (List Char × List Char)
  | '"' :: '"' :: '"' :: rest => readBasic? true (dropLineBreak rest)
  | '"' :: rest => readBasic? false rest
  | '\'' :: '\'' :: '\'' :: rest => readLiteral? true (dropLineBreak rest)
  | '\'' :: rest => readLiteral? false rest
  | _ => none

/-- The length of the longest run of a character, given the run before the list. -/
def longestRun
    (char : Char) :
    Nat →
    List Char →
    Nat
  | current, [] => current
  | current, head :: rest =>
      if head = char then longestRun char (current + 1) rest
      else max current (longestRun char 0 rest)

/--
The escape of a character that needs one, given whether quotes and line breaks do.
-/
def escape
    (quote lineBreak : Bool)
    (char : Char) :
    List Char :=
  if char = '\x08' then ['\\', 'b']
  else if char = '\t' then ['\\', 't']
  else if char = '\n' then (if lineBreak then ['\\', 'n'] else ['\n'])
  else if char = '\x0c' then ['\\', 'f']
  else if char = '\r' then ['\\', 'r']
  else if char = '"' then (if quote then ['\\', '"'] else ['"'])
  else if char = '\\' then ['\\', '\\']
  else if isControl char then
    '\\' :: 'u' ::
      (List.replicate (4 - (Nat.toDigits 16 char.toNat).length) '0' ++
        (Nat.toDigits 16 char.toNat).map Char.toUpper)
  else [char]

/--
Escape text; a quote is escaped if more than `allowed` of them
would follow each other.
-/
def escapeAll
    (allowed : Nat)
    (lineBreak : Bool) :
    Nat →
    List Char →
    List Char
  | _, [] => []
  | quotes, char :: rest =>
      if char = '"' then
        if allowed < quotes + 1 then escape true lineBreak char ++
          escapeAll allowed lineBreak 0 rest
        else escape false lineBreak char ++
          escapeAll allowed lineBreak (quotes + 1) rest
      else escape true lineBreak char ++ escapeAll allowed lineBreak 0 rest

/--
The line break after an opening triple quote, written if the text has line breaks.
-/
def leadingBreak (chars : List Char) : List Char :=
  if '\n' ∈ chars then ['\n'] else []

/-- Text in quotes. -/
def quote (text : String) : String :=
  let chars := text.toList
  let needsCodes := chars.any fun char => isControl char && char != '\n'
  let hasBackslash := decide ('\\' ∈ chars)
  let hasBreak := decide ('\n' ∈ chars)
  let quotes := longestRun '"' 0 chars
  let apostrophes := longestRun '\'' 0 chars
  let basic := '"' :: (escapeAll 0 true 0 chars ++ ['"'])
  let multilineBasic :=
    ['"', '"', '"'] ++ leadingBreak chars ++
      escapeAll 2 false 0 chars ++ ['"', '"', '"']
  let multilineLiteral :=
    ['\'', '\'', '\''] ++ leadingBreak chars ++ chars ++ ['\'', '\'', '\'']
  String.ofList <|
    if !needsCodes && !hasBackslash && quotes == 0 && !hasBreak then basic
    else if !needsCodes && apostrophes ==
        0 && !hasBreak then '\'' :: (chars ++ ['\''])
    else if !needsCodes && !hasBackslash && decide (quotes ≤ 2) then multilineBasic
    else if !needsCodes && decide (apostrophes ≤ 2) then multilineLiteral
    else if hasBreak then multilineBasic
    else basic

end Coap.Toml
