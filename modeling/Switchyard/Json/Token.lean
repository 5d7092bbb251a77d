import Switchyard.Json
import Switchyard.Numeral

/-!
# JSON tokens

The lexical half of reading JSON. Only the four JSON blanks may stand between tokens. A number
literal has no leading zero, and digits after its point and in its exponent. A string literal holds
no raw control character.
-/

namespace Switchyard

namespace Json

/-- A JSON token. -/
inductive Token where
  | openArray
  | closeArray
  | openObject
  | closeObject
  | comma
  | colon
  | null
  | bool (value : Bool)
  | number (literal : String)
  | string (text : JsonText)

namespace Token

/-- What a string literal is made of: characters, and code units that were written as escapes. -/
inductive Piece where
  | char (c : Char)
  | unit (value : Nat)

/-- The character that a one-letter escape stands for. -/
def escape? : Char → Option Char
  | '"' => some '"'
  | '\\' => some '\\'
  | '/' => some '/'
  | 'b' => some '\x08'
  | 'f' => some '\x0c'
  | 'n' => some '\n'
  | 'r' => some '\r'
  | 't' => some '\t'
  | _ => none

/-- The pieces of a string literal up to its closing quote, and the text after it. -/
def pieces? : List Char → Option (List Piece × List Char)
  | [] => none
  | '"' :: rest => some ([], rest)
  | '\\' :: 'u' :: a :: b :: c :: d :: rest => do
    let value ← Numeral.ofDigits? 16 [a, b, c, d]
    let (pieces, rest) ← pieces? rest
    return (.unit value :: pieces, rest)
  | '\\' :: e :: rest => do
    let c ← escape? e
    let (pieces, rest) ← pieces? rest
    return (.char c :: pieces, rest)
  | c :: rest => do
    guard (0x20 ≤ c.toNat)
    let (pieces, rest) ← pieces? rest
    return (.char c :: pieces, rest)

/-- Is the code unit the first half of a surrogate pair? -/
def isHighSurrogate (u : Nat) : Bool := 0xD800 ≤ u && u < 0xDC00

/-- Is the code unit the second half of a surrogate pair? -/
def isLowSurrogate (u : Nat) : Bool := 0xDC00 ≤ u && u < 0xE000

/-- The characters of the pieces; halves of surrogate pairs must come in pairs. -/
def charsOf? : List Piece → Option (List Char)
  | [] => some []
  | .char c :: rest => (charsOf? rest).map (c :: ·)
  | .unit u :: rest =>
    if isHighSurrogate u then
      match rest with
      | .unit v :: rest =>
        if isLowSurrogate v then
          (charsOf? rest).map (Char.ofNat (0x10000 + (u - 0xD800) * 0x400 + (v - 0xDC00)) :: ·)
        else none
      | _ => none
    else if isLowSurrogate u then none
    else (charsOf? rest).map (Char.ofNat u :: ·)

/-- The whole part of a number literal: zero, or digits that start with another one. -/
def whole? (text : List Char) : Option (List Char × List Char) :=
  match text with
  | '0' :: rest => some (['0'], rest)
  | _ =>
    let digits := text.takeWhile Char.isDigit
    if digits.isEmpty then none else some (digits, text.dropWhile Char.isDigit)

/-- At least one digit, after what has been read already. -/
def digitsAfter? (read text : List Char) : Option (List Char × List Char) :=
  let digits := text.takeWhile Char.isDigit
  if digits.isEmpty then none else some (read ++ digits, text.dropWhile Char.isDigit)

/-- The fraction of a number literal; there need not be one. -/
def fraction? : List Char → Option (List Char × List Char)
  | '.' :: rest => digitsAfter? ['.'] rest
  | text => some ([], text)

/-- The exponent of a number literal; there need not be one. -/
def exponent? : List Char → Option (List Char × List Char)
  | e :: rest =>
    if e = 'e' ∨ e = 'E' then
      match rest with
      | '+' :: digits => digitsAfter? [e, '+'] digits
      | '-' :: digits => digitsAfter? [e, '-'] digits
      | digits => digitsAfter? [e] digits
    else some ([], e :: rest)
  | [] => some ([], [])

/-- A number literal without a sign. -/
def magnitude? (text : List Char) : Option (List Char × List Char) := do
  let (whole, rest) ← whole? text
  let (fraction, rest) ← fraction? rest
  let (exponent, rest) ← exponent? rest
  return (whole ++ fraction ++ exponent, rest)

/-- A number literal. -/
def number? : List Char → Option (Token × List Char)
  | '-' :: text => (magnitude? text).map fun (literal, rest) =>
    (.number (String.ofList ('-' :: literal)), rest)
  | text => (magnitude? text).map fun (literal, rest) => (.number (String.ofList literal), rest)

/-- The token in front of a text that does not start with a blank. -/
def next? : List Char → Option (Token × List Char)
  | '[' :: rest => some (.openArray, rest)
  | ']' :: rest => some (.closeArray, rest)
  | '\x7b' :: rest => some (.openObject, rest)
  | '\x7d' :: rest => some (.closeObject, rest)
  | ',' :: rest => some (.comma, rest)
  | ':' :: rest => some (.colon, rest)
  | '"' :: rest => do
    let (pieces, rest) ← pieces? rest
    return (.string ((charsOf? pieces).map String.ofList), rest)
  | 'n' :: 'u' :: 'l' :: 'l' :: rest => some (.null, rest)
  | 't' :: 'r' :: 'u' :: 'e' :: rest => some (.bool true, rest)
  | 'f' :: 'a' :: 'l' :: 's' :: 'e' :: rest => some (.bool false, rest)
  | text => number? text

/-- Is the character a blank between tokens? -/
def isBlank (c : Char) : Bool := c == ' ' || c == '\t' || c == '\n' || c == '\r'

/-- The tokens of a text, found in at most `fuel` steps. -/
def scan : Nat → List Char → Option (List Token)
  | 0, _ => none
  | fuel + 1, text =>
    match text.dropWhile isBlank with
    | [] => some []
    | start => do
      let (token, rest) ← next? start
      let tokens ← scan fuel rest
      return token :: tokens

/-- The tokens of a text. Each takes at least one character. -/
def ofText? (text : List Char) : Option (List Token) := scan (text.length + 1) text

end Token

end Json

end Switchyard
