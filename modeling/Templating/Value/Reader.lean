import Templating.Number.Scaled
import Templating.Text.Split
import Templating.Value.Basic

/-!
# Reading data text

Data text is JSON. `DataToken.scanAll` cuts it into tokens, in which numbers and
quoted texts are already read, and `Value.ofTokens?` builds the datum with a list
of the arrays and objects that are still open. Both go through their input once,
so neither needs more depth than the text is long.
-/

namespace Templating

/-- The pieces of data text. -/
inductive DataToken
  | leftBracket
  | rightBracket
  | leftBrace
  | rightBrace
  | comma
  | colon
  | text (content : String)
  | scalar (value : Value)

namespace DataToken

/-- The value of a hexadecimal digit. -/
def hexValue? (c : Char) : Option Nat :=
  if isDigit c then some (c.toNat - '0'.toNat)
  else if 'a' ≤ c && c ≤ 'f' then some (c.toNat - 'a'.toNat + 10)
  else if 'A' ≤ c && c ≤ 'F' then some (c.toNat - 'A'.toNat + 10)
  else none

/-- The number that four hexadecimal digits spell. -/
def hexUnit? (a b c d : Char) : Option Nat := do
  let a ← hexValue? a
  let b ← hexValue? b
  let c ← hexValue? c
  let d ← hexValue? d
  pure (((a * 16 + b) * 16 + c) * 16 + d)

/-- The character that a letter after a backslash names. -/
def namedEscape? : Char → Option Char
  | '"' => some '"'
  | '\\' => some '\\'
  | '/' => some '/'
  | 'b' => some '\x08'
  | 'f' => some '\x0c'
  | 'n' => some '\n'
  | 'r' => some '\r'
  | 't' => some '\t'
  | _ => none

/-- The characters up to the closing quote, and what follows it. A character
outside the first plane is escaped as two halves, and a half alone is no text. -/
def scanText : List Char → Option (List Char × List Char)
  | [] => none
  | '"' :: rest => some ([], rest)
  | '\\' :: 'u' :: a :: b :: c :: d :: '\\' :: 'u' :: e :: f :: g :: h :: rest =>
    match hexUnit? a b c d, hexUnit? e f g h with
    | some high, some low =>
      if 0xD800 ≤ high && high < 0xDC00 then
        if 0xDC00 ≤ low && low < 0xE000 then
          let code := 0x10000 + (high - 0xD800) * 0x400 + (low - 0xDC00)
          (scanText rest).map fun (content, rest) => (Char.ofNat code :: content, rest)
        else none
      else if 0xDC00 ≤ high && high < 0xE000 then none
      else
        (scanText ('\\' :: 'u' :: e :: f :: g :: h :: rest)).map fun (content, rest) =>
          (Char.ofNat high :: content, rest)
    | _, _ => none
  | '\\' :: 'u' :: a :: b :: c :: d :: rest =>
    match hexUnit? a b c d with
    | some unit =>
      if 0xD800 ≤ unit && unit < 0xE000 then none
      else (scanText rest).map fun (content, rest) => (Char.ofNat unit :: content, rest)
    | none => none
  | '\\' :: letter :: rest =>
    match namedEscape? letter with
    | some c => (scanText rest).map fun (content, rest) => (c :: content, rest)
    | none => none
  | c :: rest =>
    if c = '\\' ∨ c.toNat < 0x20 then none
    else (scanText rest).map fun (content, rest) => (c :: content, rest)

/-- The words of data text. -/
def wordValues : List (List Char × Value) :=
  [("null".toList, .null), ("true".toList, .bool true), ("false".toList, .bool false)]

/-- A word at the front of a text, as the datum it names. -/
def scanWord? (input : List Char) : Option (Value × List Char) :=
  wordValues.findSome? fun (word, value) => (Text.after? word input).map (value, ·)

/-- A number at the front of a text. -/
def scanNumber? (input : List Char) : Option (Value × List Char) :=
  let (numeral, rest) := Numeral.scan input
  numeral.data?.map fun number => (.number number, rest)

/-- The characters that stand for themselves. -/
def punctuation? : Char → Option DataToken
  | '[' => some .leftBracket
  | ']' => some .rightBracket
  | '\x7b' => some .leftBrace
  | '\x7d' => some .rightBrace
  | ',' => some .comma
  | ':' => some .colon
  | _ => none

/-- The first token of a text that does not begin with a space, and what follows
it. -/
def scan? : List Char → Option (DataToken × List Char)
  | [] => none
  | c :: rest =>
    match punctuation? c with
    | some token => some (token, rest)
    | none =>
      if c = '"' then
        (scanText rest).map fun (content, rest) => (.text (String.ofList content), rest)
      else
        ((scanWord? (c :: rest)).or (scanNumber? (c :: rest))).map fun (value, rest) =>
          (.scalar value, rest)

/-- The characters that may stand between tokens. -/
def isSpace (c : Char) : Bool :=
  c == ' ' || c == '\t' || c == '\n' || c == '\r'

/-- All tokens of a text. Each takes at least one character, so a text has no more
tokens than `fuel`, its length. -/
def scanUpTo : (fuel : Nat) → List Char → Option (List DataToken)
  | 0, input => if input.all isSpace then some [] else none
  | fuel + 1, input =>
    match input.dropWhile isSpace with
    | [] => some []
    | start =>
      match scan? start with
      | none => none
      | some (token, rest) => (scanUpTo fuel rest).map (token :: ·)

/-- All tokens of a text. -/
def scanAll (input : List Char) : Option (List DataToken) :=
  scanUpTo input.length input

end DataToken

namespace Value

/-- An array or object that is still open, with the items or members read so far,
the last one first, and the name that the next member has. -/
inductive Container
  | array (before : List Value)
  | object (before : List (String × Value)) (name : String)

mutual

/-- Reads a datum from the front of the tokens, and then what is open around it. -/
def ofTokens? (containers : List Container) : List DataToken → Option Value
  | .scalar value :: tokens => complete? containers value tokens
  | .text content :: tokens => complete? containers (.text content) tokens
  | .leftBracket :: .rightBracket :: tokens => complete? containers (.array []) tokens
  | .leftBracket :: tokens => ofTokens? (.array [] :: containers) tokens
  | .leftBrace :: .rightBrace :: tokens => complete? containers (.object []) tokens
  | .leftBrace :: .text name :: .colon :: tokens =>
    ofTokens? (.object [] name :: containers) tokens
  | _ => none

/-- Puts a datum that has been read into the innermost open container, and reads
on from there. -/
def complete? (containers : List Container) (value : Value) : List DataToken → Option Value
  | [] => if containers.isEmpty then some value else none
  | .comma :: tokens =>
    match containers, tokens with
    | .array before :: outer, tokens => ofTokens? (.array (value :: before) :: outer) tokens
    | .object before name :: outer, .text next :: .colon :: tokens =>
      ofTokens? (.object ((name, value) :: before) next :: outer) tokens
    | _, _ => none
  | .rightBracket :: tokens =>
    match containers with
    | .array before :: outer => complete? outer (.array (value :: before).reverse) tokens
    | _ => none
  | .rightBrace :: tokens =>
    match containers with
    | .object before name :: outer =>
      complete? outer (.ofMembers ((name, value) :: before).reverse) tokens
    | _ => none
  | _ => none

end

/-- The datum that a text holds. -/
def ofText? (input : List Char) : Option Value :=
  (DataToken.scanAll input).bind (ofTokens? [])

end Value

end Templating
