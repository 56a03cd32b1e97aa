/-!
# Blank characters

Attribute values, expressions and markup are trimmed and cut at blank
characters. Blank means the Unicode property White_Space, so a no-break space or
an ideographic space separates words just as a tab does. `words` is the only
place that says what a word is.
-/

namespace Templating.Text

/-- The twenty-five characters with the Unicode property White_Space. -/
def isBlank (c : Char) : Bool :=
  let code := c.toNat
  (0x9 ≤ code && code ≤ 0xD) || code == 0x20 || code == 0x85 || code == 0xA0 ||
    code == 0x1680 || (0x2000 ≤ code && code ≤ 0x200A) || code == 0x2028 ||
    code == 0x2029 || code == 0x202F || code == 0x205F || code == 0x3000

/-- Whether a text holds blank characters only; the empty text does. -/
def allBlank (text : List Char) : Bool :=
  text.all isBlank

/-- The text without its leading blanks. -/
def trimStart (text : List Char) : List Char :=
  text.dropWhile isBlank

/-- The text without its trailing blanks. -/
def trimEnd (text : List Char) : List Char :=
  (trimStart text.reverse).reverse

/-- The text without the blanks at its two ends. -/
def trim (text : List Char) : List Char :=
  trimEnd (trimStart text)

/-- The maximal runs of characters that are not blank, in order. -/
def words : List Char → List (List Char)
  | [] => []
  | c :: rest =>
    if isBlank c then words rest
    else if rest.head?.all isBlank then [c] :: words rest
    else
      match words rest with
      | [] => [[c]]
      | word :: more => (c :: word) :: more

/-- The first word after any leading blanks, and what follows it. -/
def firstWord (text : List Char) : List Char × List Char :=
  let start := trimStart text
  (start.takeWhile fun c => !isBlank c, start.dropWhile fun c => !isBlank c)

/-- Every blank of the ASCII range that core knows is a blank here. -/
theorem isBlank_of_isWhitespace {c : Char} (blank : c.isWhitespace = true) :
    isBlank c = true := by
  simp only [Char.isWhitespace, Bool.or_eq_true, decide_eq_true_eq] at blank
  rcases blank with ((rfl | rfl) | rfl) | rfl <;> rfl

end Templating.Text
