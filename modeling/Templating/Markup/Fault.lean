/-!
# Faults in markup

What can be wrong with markup, and where. A fault is explained by one sentence;
`MarkupError` puts the place in front of it, in lines and in bytes of the UTF-8
encoding, both counted from one. A `Cursor` keeps count while characters are read, and
`Location.ofUnread` finds the place of a fault from what was left to read.
-/

namespace Templating

/-- What can be wrong with markup. The descriptions are kept as they are shown. -/
inductive MarkupFault
  | unexpectedToken (expected found : String)
  | unexpectedEnd (expectation : String)
  | mismatchedTag (opened found : String)
  | unopenedTag (tag : String)
  | missing (description : String)
deriving DecidableEq

namespace MarkupFault

/-- The fault of a text that ends where something else was expected. -/
def ending (expected : Option String) : MarkupFault :=
  match expected with
  | none => .unexpectedEnd ""
  | some mark => .unexpectedEnd s!" (expected '{mark}')"

/-- The explanation of a fault. -/
def message : MarkupFault → String
  | .unexpectedToken expected found => s!"Expected {expected}, found {found}"
  | .unexpectedEnd expectation => s!"Unexpected EOF{expectation}"
  | .mismatchedTag opened found =>
    s!"Closing tag </{found}> does not match open tag <{opened}>"
  | .unopenedTag tag => s!"Closing tag </{tag}> has no matching open tag"
  | .missing description => s!"Expected {description}"

/-- The explanations of a fault and of what caused it, outermost first. -/
def explanations (fault : MarkupFault) : List String :=
  [fault.message]

end MarkupFault

/-- A place in a text. -/
structure Location where
  line : Nat
  column : Nat
deriving DecidableEq

/-- Where reading stands in a text: the bytes that it has read, its line, and the byte at
which that line began. -/
structure Cursor where
  position : Nat
  line : Nat
  lineStart : Nat
deriving DecidableEq

namespace Cursor

/-- The front of a text. -/
def start : Cursor :=
  ⟨0, 1, 0⟩

/-- Behind one more character. A line begins behind each line break. -/
def bump (cursor : Cursor) (c : Char) : Cursor :=
  if c = '\n' then ⟨cursor.position + c.utf8Size, cursor.line + 1, cursor.position + 1⟩
  else { cursor with position := cursor.position + c.utf8Size }

/-- Behind some more characters. -/
def advance (cursor : Cursor) (text : List Char) : Cursor :=
  text.foldl bump cursor

/-- The place at which the cursor stands. -/
def location (cursor : Cursor) : Location :=
  ⟨cursor.line, cursor.position - cursor.lineStart + 1⟩

end Cursor

/-- The place in `input` at which `unread` is left. -/
def Location.ofUnread (input unread : List Char) : Location :=
  (Cursor.start.advance (input.take (input.length - unread.length))).location

/-- A fault and its place. -/
structure MarkupError where
  line : Nat
  column : Nat
  fault : MarkupFault
deriving DecidableEq

namespace MarkupError

/-- The explanation of an error, with its place. -/
def message (error : MarkupError) : String :=
  let line := error.line
  let column := error.column
  let fault := error.fault.message
  s!"Parse error at line {line}, column {column}: {fault}"

/-- The explanations of an error and of what caused it, outermost first. -/
def explanations (error : MarkupError) : List String :=
  error.message :: error.fault.explanations

end MarkupError

end Templating
