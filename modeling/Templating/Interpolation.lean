import Templating.Path
import Templating.Text.Blank
import Templating.Value.Compact

/-!
# Interpolated text

A text may hold placeholders, paths between double braces. `Interpolation.compile`
cuts it into literals and paths, and `Interpolation.evaluate` puts data in their
place. A text that is one placeholder alone yields the datum itself, so that its
absence can be told from an empty text.
-/

namespace Templating

/-- What a placeholder whose path is absent leaves in a text. -/
inductive Missing
  | empty
  | raw
deriving DecidableEq

/-- A piece of interpolated text. -/
inductive Token
  | literal (content : String)
  | path (path : Path)
deriving DecidableEq

/-- A text as literals and placeholders. -/
structure Interpolation where
  tokens : List Token
deriving DecidableEq

/-- What an interpolated text evaluates to: the datum of a placeholder that stands
alone, its absence, or a text. -/
inductive Interpolated
  | value (value : Value)
  | absent
  | text (content : String)

namespace Interpolated

/-- Whether the result may replace an element's content: nothing absent, false or
empty does. -/
def isTruthy : Interpolated → Bool
  | .absent => false
  | .text content => !content.isEmpty
  | .value .null => false
  | .value (.bool truth) => truth
  | .value (.text content) => !content.isEmpty
  | .value _ => true

/-- The text of the result. -/
def text? : Interpolated → Option String
  | .absent => none
  | .text content => some content
  | .value datum => some datum.plain

end Interpolated

namespace Interpolation

/-- What begins a placeholder. -/
def opening : List Char :=
  ['\x7b', '\x7b']

/-- What ends a placeholder. -/
def closing : List Char :=
  ['\x7d', '\x7d']

/-- Adds literal text in front of tokens. Nothing is added for the empty text, and
a literal that follows takes it in, so that literals never stand side by side. -/
def prependLiteral (content : List Char) (tokens : List Token) : List Token :=
  if content = [] then tokens
  else
    match tokens with
    | .literal next :: rest => .literal (String.ofList (content ++ next.toList)) :: rest
    | tokens => .literal (String.ofList content) :: tokens

/-- The tokens of a text. A placeholder without a closing mark, and one with
nothing but blanks in it, are literal text. -/
def tokensOf (text : List Char) : List Token :=
  match _cut : Text.cutAt? opening text with
  | none => prependLiteral text []
  | some (before, afterOpening) =>
    match _cutClosing : Text.cutAt? closing afterOpening with
    | none => prependLiteral text []
    | some (inside, rest) =>
      let key := Text.trim inside
      if key = [] then
        prependLiteral (before ++ opening ++ inside ++ closing) (tokensOf rest)
      else prependLiteral before (.path (.ofText (String.ofList key)) :: tokensOf rest)
termination_by text.length
decreasing_by
  all_goals
    have outer := Text.length_of_cutAt? _cut
    have inner := Text.length_of_cutAt? _cutClosing
    simp only [opening, closing, List.length_cons, List.length_nil] at outer inner
    omega

/-- The tokens of a text with placeholders. -/
def compile (template : String) : Interpolation :=
  ⟨tokensOf template.toList⟩

/-- The tokens of a directive's value, which is a text with placeholders if it has
an opening mark, and otherwise a path alone. -/
def ofExpression (expression : String) : Interpolation :=
  if (Text.cutAt? opening expression.toList).isSome then compile expression
  else ⟨[.path (.ofText (String.ofList (Text.trim expression.toList)))]⟩

/-- The paths of the placeholders, in order. -/
def paths (interpolation : Interpolation) : List Path :=
  interpolation.tokens.filterMap fun
    | .path path => some path
    | .literal _ => none

/-- A placeholder as written around a path, without blanks. -/
def placeholder (path : Path) : String :=
  String.ofList (opening ++ path.raw.toList ++ closing)

/-- What a token contributes to a text. -/
def contribution (context : Value) (missing : Missing) : Token → String
  | .literal content => content
  | .path path =>
    match path.resolve? context, missing with
    | some value, _ => value.plain
    | none, .empty => ""
    | none, .raw => placeholder path

/-- What the text is in a context. -/
def evaluate (interpolation : Interpolation) (context : Value) (missing : Missing) :
    Interpolated :=
  match interpolation.tokens with
  | [] => .text ""
  | [.literal content] => .text content
  | [.path path] =>
    match path.resolve? context with
    | some value => .value value
    | none => .absent
  | tokens => .text (String.join (tokens.map (contribution context missing)))

end Interpolation

end Templating
