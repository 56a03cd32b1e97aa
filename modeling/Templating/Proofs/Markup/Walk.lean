import Mathlib.Logic.Relation
import Templating.Proofs.Markup.Place
import Templating.Proofs.Text.Slice

/-!
# Walks through markup

`Node.parse` takes pieces off a text. A walk reads the same text with a cursor, one character or
one mark in a step, and keeps account of the calls that it is in: lists of nodes, comments, runs of
text, elements and their attributes, each with the byte at which it was begun. All that a walk sees
is what is left behind a byte and what stands between two bytes, and a column is a difference of
bytes. `Walk.step` has no result where a byte is not between two characters of the text, or where a
difference would be negative; a loop may go on for ever, as nothing here says that it ends.
-/

namespace Templating

namespace Cursor

/-- Behind a mark in which no line ends. -/
def skip (cursor : Cursor) (mark : List Char) : Cursor :=
  { cursor with position := cursor.position + Text.byteSize mark }

/-- The column at which the cursor stands, if its line began before it. -/
def column? (cursor : Cursor) : Option Nat :=
  if cursor.lineStart ≤ cursor.position then some (cursor.position - cursor.lineStart + 1) else none

theorem advance_append (cursor : Cursor) (first second : List Char) :
    cursor.advance (first ++ second) = (cursor.advance first).advance second :=
  List.foldl_append

/-- A cursor that goes past characters goes past their bytes. -/
theorem position_advance (cursor : Cursor) (text : List Char) :
    (cursor.advance text).position = cursor.position + Text.byteSize text := by
  induction text generalizing cursor with
  | nil => rfl
  | cons c text inductionHypothesis =>
    have bumped : (cursor.bump c).position = cursor.position + c.utf8Size := by
      rw [bump]
      split <;> rfl
    rw [advance, List.foldl_cons, ← advance, inductionHypothesis, bumped, Text.byteSize_cons,
      Nat.add_assoc]

/-- A mark without line breaks may be gone past character by character. -/
theorem skip_eq_advance {mark : List Char} (unbroken : '\n' ∉ mark) (cursor : Cursor) :
    cursor.skip mark = cursor.advance mark := by
  induction mark generalizing cursor with
  | nil => rfl
  | cons c mark inductionHypothesis =>
    obtain ⟨notBreak, unbroken⟩ := List.ne_and_not_mem_of_not_mem_cons unbroken
    rw [advance, List.foldl_cons, ← advance, ← inductionHypothesis unbroken, bump,
      if_neg (Ne.symm notBreak), skip, skip, Text.byteSize_cons, Nat.add_assoc]

/-- The line of a cursor that went past a text began before the cursor. -/
theorem lineStart_le_position (before : List Char) :
    (start.advance before).lineStart ≤ (start.advance before).position := by
  obtain ⟨position_eq, -, earlier, line, parts, -, -, lineStart_eq⟩ := IsBehind.start.advance before
  rw [parts, String.utf8ByteSize_append] at position_eq
  omega

/-- A cursor that went past a text has a column. -/
theorem column?_advance (before : List Char) :
    (start.advance before).column? = some (start.advance before).location.column :=
  if_pos (lineStart_le_position before)

end Cursor

/-- An error is at the cursor that went past what was read. -/
theorem Node.errorAt_append (before unread : List Char) (fault : MarkupFault) :
    errorAt (before ++ unread) ⟨fault, unread⟩ =
      ⟨(Cursor.start.advance before).line, (Cursor.start.advance before).location.column,
        fault⟩ := by
  rw [errorAt, Location.ofUnread, List.length_append, Nat.add_sub_cancel, List.take_left]
  rfl

/-- What is read by a call of its own. -/
inductive Routine
  | nodes
  | comment
  | text
  | element
  | attribute
deriving DecidableEq

/-- A call, with the byte at which it was begun. -/
structure Call where
  routine : Routine
  start : Nat
deriving DecidableEq

/-- An opening tag that is not read to its end: the byte at which its element begins, and what it
has so far. -/
structure OpeningTag where
  start : Nat
  tag : String
  attributes : List Attribute
deriving DecidableEq

/-- The two quotes that a value may stand in. -/
abbrev Quote :=
  { c : Char // c = '"' ∨ c = '\'' }

/-- How far an attribute is read. A word that is being read comes with the byte at which it
began. -/
inductive AttributePart
  | name
  | equals (name : String)
  | value (name : String)
  | quoted (name : String) (quote : Quote) (wordStart : Nat)
  | bare (name : String) (wordStart : Nat)
deriving DecidableEq

/-- What a walk is doing in the innermost list of nodes. Calls come with the bytes at which they
were begun, closing tags with their place. -/
inductive Activity
  | nodes
  | comment (start : Nat)
  | text (start : Nat)
  | closingTag (place : Location) (wordStart : Nat)
  | closingEnd (place : Location) (tag : String)
  | closed (place : Location) (tag : String)
  | openingTag (start wordStart : Nat)
  | attributes (opening : OpeningTag)
  | attribute (opening : OpeningTag) (start : Nat) (part : AttributePart)
deriving DecidableEq

/-- An element whose nodes are being read, with the bytes at which the element was begun and the
list of nodes that it stands in. -/
structure Frame extends OpenElement where
  nodesStart : Nat
  elementStart : Nat

/-- A walk on its way: its cursor, what it is doing, where the innermost list of nodes was begun
and which nodes it has, the nearest first, and the elements around it, the innermost first. -/
structure Walk where
  cursor : Cursor
  activity : Activity
  start : Nat
  siblings : List Node
  enclosing : List Frame

/-- What comes of a step. -/
inductive Walk.Step
  | next (walk : Walk)
  | ended (result : Except MarkupError (List Node))

/-- The calls that an activity is in, the innermost first. -/
def Activity.calls : Activity → List Call
  | .nodes | .closingTag _ _ | .closingEnd _ _ | .closed _ _ => []
  | .comment start => [⟨.comment, start⟩]
  | .text start => [⟨.text, start⟩]
  | .openingTag start _ => [⟨.element, start⟩]
  | .attributes opening => [⟨.element, opening.start⟩]
  | .attribute opening start _ => [⟨.attribute, start⟩, ⟨.element, opening.start⟩]

/-- The calls of an element and of the list that it stands in. -/
def Frame.calls (frame : Frame) : List Call :=
  [⟨.element, frame.elementStart⟩, ⟨.nodes, frame.nodesStart⟩]

namespace Walk

/-- A walk at the front of a text. -/
def begin : Walk :=
  ⟨.start, .nodes, 0, [], []⟩

/-- The calls of lists of nodes that a walk is in, and those of the elements around them. -/
def outerCalls (walk : Walk) : List Call :=
  ⟨.nodes, walk.start⟩ :: walk.enclosing.flatMap Frame.calls

/-- All calls that a walk is in, the innermost first. -/
def calls (walk : Walk) : List Call :=
  walk.activity.calls ++ walk.outerCalls

/-- Does something else. -/
def turn (walk : Walk) (activity : Activity) : Walk :=
  { walk with activity }

/-- Goes past a character. -/
def bump (walk : Walk) (c : Char) : Walk :=
  { walk with cursor := walk.cursor.bump c }

/-- Goes past a mark. -/
def skip (walk : Walk) (mark : List Char) : Walk :=
  { walk with cursor := walk.cursor.skip mark }

/-- Has one node more. -/
def add (walk : Walk) (node : Node) : Walk :=
  { walk with activity := .nodes, siblings := node :: walk.siblings }

/-- Begins the list of nodes in an element. -/
def enter (walk : Walk) (opening : OpeningTag) : Walk where
  cursor := walk.cursor
  activity := .nodes
  start := walk.cursor.position
  siblings := []
  enclosing := ⟨⟨opening.tag, opening.attributes, walk.siblings⟩, walk.start, opening.start⟩ ::
    walk.enclosing

/-- Ends the list of nodes in an element, and the element. -/
def leave (walk : Walk) (frame : Frame) (outer : List Frame) : Walk where
  cursor := walk.cursor
  activity := .nodes
  start := frame.nodesStart
  siblings := .element frame.tag frame.attributes walk.siblings.reverse :: frame.before
  enclosing := outer

/-- Has one attribute more. -/
def addAttribute (walk : Walk) (opening : OpeningTag) (name : String) (value : List Char) : Walk :=
  let entry : Attribute := ⟨name, String.ofList value⟩
  walk.turn (.attributes { opening with attributes := opening.attributes ++ [entry] })

/-- Stops with a fault at the cursor. -/
def fail (walk : Walk) (fault : MarkupFault) : Option Step := do
  let column ← walk.cursor.column?
  return .ended (.error ⟨walk.cursor.line, column, fault⟩)

/-- Goes past a character that is accepted, and does something else where there is none. -/
def loop (walk : Walk) (accepts : Char → Bool) (unread : List Char) (afterwards : Option Step) :
    Option Step :=
  match unread with
  | [] => afterwards
  | c :: _ => if accepts c then some (.next (walk.bump c)) else afterwards

/-- Between two nodes. -/
def stepNodes (walk : Walk) : (unread : List Char) → Option Step
  | [] =>
    match walk.enclosing with
    | [] => some (.ended (.ok walk.siblings.reverse))
    | parent :: _ => walk.fail (.ending (some ("</" ++ parent.tag ++ ">")))
  | c :: rest =>
    let position := walk.cursor.position
    match Text.after? Piece.commentStart (c :: rest) with
    | some _ => some (.next ((walk.skip Piece.commentStart).turn (.comment position)))
    | none =>
      match Text.after? Piece.closingStart (c :: rest) with
      | some _ => do
        let column ← walk.cursor.column?
        let inside := walk.skip Piece.closingStart
        return .next (inside.turn (.closingTag ⟨walk.cursor.line, column⟩ inside.cursor.position))
      | none =>
        if opensMarkup (c :: rest) then
          let inside := walk.skip ['<']
          some (.next (inside.turn (.openingTag position inside.cursor.position)))
        else some (.next ((walk.bump c).turn (.text position)))

/-- In a comment. -/
def stepComment (walk : Walk) (unread : List Char) : Option Step :=
  match Text.after? Piece.commentEnd.toList unread with
  | some _ => some (.next ((walk.skip Piece.commentEnd.toList).turn .nodes))
  | none =>
    match unread with
    | [] => walk.fail (.ending (some Piece.commentEnd))
    | c :: _ => some (.next (walk.bump c))

/-- In a run of text. -/
def stepText (walk : Walk) (markup : String) (start : Nat) (unread : List Char) : Option Step :=
  walk.loop (fun _ => !opensMarkup unread) unread do
    let content ← Text.slice? start walk.cursor.position markup.toList
    return .next (walk.add (.text (String.ofList (Entity.decode content))))

/-- In the tag of an opening or closing tag. -/
def stepTag (walk : Walk) (markup : String) (wordStart : Nat) (activity : String → Activity)
    (unread : List Char) : Option Step :=
  walk.loop isTagChar unread do
    let tag ← Text.slice? wordStart walk.cursor.position markup.toList
    if tag = [] then walk.fail (.missing "tag name")
    else return .next (walk.turn (activity (String.ofList tag)))

/-- Behind the tag of a closing tag. -/
def stepClosingEnd (walk : Walk) (place : Location) (tag : String) (unread : List Char) :
    Option Step :=
  walk.loop Text.isBlank unread
    (match Piece.expect ">" unread with
    | .ok _ => some (.next ((walk.skip ['>']).turn (.closed place tag)))
    | .error stop => walk.fail stop.fault)

/-- Behind a closing tag. -/
def stepClosed (walk : Walk) (place : Location) (tag : String) : Option Step :=
  match walk.enclosing with
  | [] => some (.ended (.error ⟨place.line, place.column, .unopenedTag tag⟩))
  | parent :: outer =>
    if parent.tag = tag then some (.next (walk.leave parent outer))
    else some (.ended (.error ⟨place.line, place.column, .mismatchedTag parent.tag tag⟩))

/-- Between two attributes. -/
def stepAttributes (walk : Walk) (opening : OpeningTag) (unread : List Char) : Option Step :=
  let childless := Node.element opening.tag opening.attributes []
  walk.loop Text.isBlank unread
    (match unread with
    | [] => walk.fail (.ending (some ">"))
    | '/' :: '>' :: _ => some (.next ((walk.skip ['/', '>']).add childless))
    | '>' :: _ =>
      let behind := walk.skip ['>']
      if isVoidTag opening.tag then some (.next (behind.add childless))
      else some (.next (behind.enter opening))
    | _ => some (.next (walk.turn (.attribute opening walk.cursor.position .name))))

/-- In an attribute. -/
def stepAttribute (walk : Walk) (markup : String) (opening : OpeningTag) (start : Nat)
    (part : AttributePart) (unread : List Char) : Option Step :=
  let position := walk.cursor.position
  match part with
  | .name =>
    walk.loop isNameChar unread do
      let name ← Text.slice? start position markup.toList
      if name = [] then walk.fail (.missing "attribute name")
      else return .next (walk.turn (.attribute opening start (.equals (String.ofList name))))
  | .equals name =>
    walk.loop Text.isBlank unread
      (match unread with
      | '=' :: _ => some (.next ((walk.skip ['=']).turn (.attribute opening start (.value name))))
      | _ => some (.next (walk.addAttribute opening name [])))
  | .value name =>
    walk.loop Text.isBlank unread
      (match unread with
      | [] => walk.fail (.ending (some "attribute value"))
      | c :: _ =>
        if isQuote : c = '"' ∨ c = '\'' then
          let inside := walk.bump c
          let part := AttributePart.quoted name ⟨c, isQuote⟩ inside.cursor.position
          some (.next (inside.turn (.attribute opening start part)))
        else some (.next (walk.turn (.attribute opening start (.bare name position)))))
  | .quoted name quote wordStart =>
    walk.loop (· != quote.val) unread do
      let value ← Text.slice? wordStart position markup.toList
      match Piece.expect (String.ofList [quote.val]) unread with
      | .ok _ =>
        let behind := walk.skip [quote.val]
        return .next (behind.addAttribute opening name (Entity.decode value))
      | .error stop => walk.fail stop.fault
  | .bare name wordStart =>
    walk.loop isBareChar unread do
      let value ← Text.slice? wordStart position markup.toList
      return .next (walk.addAttribute opening name (Entity.decode value))

/-- What a walk does with what it has not read. -/
def stepOn (walk : Walk) (markup : String) (unread : List Char) : Option Step :=
  match walk.activity with
  | .nodes => walk.stepNodes unread
  | .comment _ => walk.stepComment unread
  | .text start => walk.stepText markup start unread
  | .closingTag place wordStart => walk.stepTag markup wordStart (.closingEnd place) unread
  | .closingEnd place tag => walk.stepClosingEnd place tag unread
  | .closed place tag => walk.stepClosed place tag
  | .openingTag start wordStart =>
    walk.stepTag markup wordStart (fun tag => .attributes ⟨start, tag, []⟩) unread
  | .attributes opening => walk.stepAttributes opening unread
  | .attribute opening start part => walk.stepAttribute markup opening start part unread

/-- One step through a text. -/
def step (walk : Walk) (markup : String) : Option Step := do
  let (_, unread) ← Text.cutBytes? walk.cursor.position markup.toList
  walk.stepOn markup unread

/-- A walk goes on as another one. -/
def Moves (markup : String) (walk next : Walk) : Prop :=
  walk.step markup = some (.next next)

/-- A walk gets to another one in some steps. -/
def Reaches (markup : String) : (walk next : Walk) → Prop :=
  Relation.ReflTransGen (Moves markup)

/-- A walk ends with a result after finitely many steps. -/
inductive Ends (markup : String) : Walk → Except MarkupError (List Node) → Prop
  | last {walk : Walk} {result : Except MarkupError (List Node)}
      (ended : walk.step markup = some (.ended result)) : Ends markup walk result
  | step {walk next : Walk} {result : Except MarkupError (List Node)}
      (moves : Moves markup walk next) (ends : Ends markup next result) : Ends markup walk result

/-- Goes past some characters. -/
def past (walk : Walk) (read : List Char) : Walk :=
  { walk with cursor := walk.cursor.advance read }

/-- A walk stands behind a part of a text. -/
structure IsAt (walk : Walk) (markup : String) (before unread : List Char) : Prop where
  parts : markup.toList = before ++ unread
  cursor_eq : walk.cursor = Cursor.start.advance before

theorem activity_past (walk : Walk) (read : List Char) :
    (walk.past read).activity = walk.activity :=
  rfl

theorem past_past (walk : Walk) (first second : List Char) :
    (walk.past first).past second = walk.past (first ++ second) := by
  rw [past, past, past, Cursor.advance_append]

theorem skip_eq_past {mark : List Char} (unbroken : '\n' ∉ mark) (walk : Walk) :
    walk.skip mark = walk.past mark := by
  rw [skip, past, Cursor.skip_eq_advance unbroken]

/-- A quote is no line break. -/
theorem skip_quote (walk : Walk) (quote : Quote) :
    walk.skip [quote.val] = walk.past [quote.val] := by
  obtain ⟨c, rfl | rfl⟩ := quote
  · exact skip_eq_past (by decide) walk
  · exact skip_eq_past (by decide) walk

namespace IsAt

variable {walk : Walk} {markup : String} {before read rest unread : List Char}

/-- A walk begins behind nothing. -/
theorem begin (markup : String) : Walk.begin.IsAt markup [] markup.toList :=
  ⟨rfl, rfl⟩

theorem past (isAt : walk.IsAt markup before (read ++ rest)) :
    (walk.past read).IsAt markup (before ++ read) rest := by
  refine ⟨by rw [isAt.parts, List.append_assoc], ?_⟩
  rw [Walk.past, isAt.cursor_eq, Cursor.advance_append]

/-- Turning to something else, a walk stays where it is. -/
theorem turn (isAt : walk.IsAt markup before unread) (activity : Activity) :
    (walk.turn activity).IsAt markup before unread :=
  ⟨isAt.parts, isAt.cursor_eq⟩

theorem position_eq (isAt : walk.IsAt markup before unread) :
    walk.cursor.position = Text.byteSize before := by
  rw [isAt.cursor_eq, Cursor.position_advance]
  exact Nat.zero_add _

/-- A walk sees what it has not read. -/
theorem step_eq (isAt : walk.IsAt markup before unread) :
    walk.step markup = walk.stepOn markup unread := by
  have cut := Text.cutBytes?_eq_some_iff.2 ⟨isAt.parts, isAt.position_eq.symm⟩
  rw [step, cut]
  rfl

/-- The word that a walk has gone past is the one between the bytes. -/
theorem slice_eq {front word : List Char} (isAt : walk.IsAt markup (front ++ word) unread) :
    Text.slice? (Text.byteSize front) walk.cursor.position markup.toList = some word :=
  Text.slice?_eq_some_iff.2 ⟨front, unread, isAt.parts, rfl, isAt.position_eq.symm⟩

/-- A fault is found at the place where the walk stands. -/
theorem fail_eq (isAt : walk.IsAt markup before unread) (fault : MarkupFault) :
    walk.fail fault = some (.ended (.error (Node.errorAt markup.toList ⟨fault, unread⟩))) := by
  rw [fail, isAt.parts, Node.errorAt_append, isAt.cursor_eq, Cursor.column?_advance]
  rfl

end IsAt

end Walk

end Templating
