import Templating.Value.Basic

/-!
# Compact data text

`Value.compact` writes a datum as JSON text without any spaces, members in their
order. `Value.plain` is how a datum appears inside rendered text: a text stands
for itself, null for nothing, and everything else for its compact form.
-/

namespace Templating

/-- A number below sixteen as a lower-case hexadecimal digit. -/
def hexDigit (n : Nat) : Char :=
  if n < 10 then digitChar n else Char.ofNat ('a'.toNat + (n - 10))

/-- How one character stands between the quotes of data text. The quote, the
backslash and the control characters below the space are escaped, the latter by
their short names where they have one. -/
def quotedChar (c : Char) : List Char :=
  if c = '"' then ['\\', '"']
  else if c = '\\' then ['\\', '\\']
  else if c = '\x08' then ['\\', 'b']
  else if c = '\x0c' then ['\\', 'f']
  else if c = '\n' then ['\\', 'n']
  else if c = '\r' then ['\\', 'r']
  else if c = '\t' then ['\\', 't']
  else if c.toNat < 0x20 then
    ['\\', 'u', '0', '0', hexDigit (c.toNat / 16), hexDigit (c.toNat % 16)]
  else [c]

/-- A text in quotes. -/
def quoted (content : String) : List Char :=
  '"' :: content.toList.flatMap quotedChar ++ ['"']

/-- Pieces with a comma between any two. -/
def commaSeparated : List (List Char) → List Char
  | [] => []
  | [piece] => piece
  | piece :: pieces => piece ++ ',' :: commaSeparated pieces

namespace Value

mutual

/-- The compact text of a datum. -/
def compact : Value → List Char
  | .null => ['n', 'u', 'l', 'l']
  | .bool true => ['t', 'r', 'u', 'e']
  | .bool false => ['f', 'a', 'l', 's', 'e']
  | .number value => value.text
  | .text content => quoted content
  | .array items => '[' :: commaSeparated (compactItems items) ++ [']']
  | .object members => '\x7b' :: commaSeparated (compactMembers members) ++ ['\x7d']

/-- The compact texts of the items of an array. -/
def compactItems : List Value → List (List Char)
  | [] => []
  | item :: items => compact item :: compactItems items

/-- The compact texts of the members of an object, each after its name. -/
def compactMembers : List (String × Value) → List (List Char)
  | [] => []
  | (name, value) :: members => (quoted name ++ ':' :: compact value) :: compactMembers members

end

/-- How a datum appears inside rendered text. -/
def plain : Value → String
  | .text content => content
  | .null => ""
  | value => String.ofList value.compact

end Value

end Templating
