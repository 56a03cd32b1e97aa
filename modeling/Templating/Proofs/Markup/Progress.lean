import Templating.Proofs.Markup.Calls
import Templating.Proofs.Markup.Course

/-!
# Progress through markup

A walk through a text ends, with the result of reading the text, and wherever it gets it can go on.
How far it has read by then is told by its place and its calls, `Walk.Progresses`: it reads
something between any two nodes of a list, a call that ends has read something, and a list of nodes
in an element begins behind the beginnings of all calls that it is in.
-/

namespace Templating

namespace Walk

variable {walk next : Walk} {markup : String} {result : Except MarkupError (List Node)}

/-- What a step does to the calls in progress: it keeps them, begins one at its cursor, or ends the
innermost ones, in each of which something has been read. -/
inductive CallStep (markup : String) (walk next : Walk) : Prop
  | keeps (calls_eq : next.calls = walk.calls)
  | begins (routine : Routine) (notNodes : routine ≠ .nodes)
      (calls_eq : next.calls = ⟨routine, walk.cursor.position⟩ :: walk.calls)
  | enters (calls_eq : next.calls = ⟨.nodes, next.cursor.position⟩ :: walk.calls)
  | ends (ended : List Call) (calls_eq : walk.calls = ended ++ next.calls)
      (consumed : ∀ call ∈ ended, Text.Consumes markup call.start next.cursor.position)

/-- What holds of a walk on its way through a text. Its cursor is in the text and between two
characters of it, and its line began no later. Behind the place between two nodes, and behind the
beginnings of calls, it reads on; and it gets out of comments. -/
structure Progresses (walk : Walk) (markup : String) : Prop where
  steps : ∃ step, walk.step markup = some step
  ends : Ends markup walk (Node.parse markup)
  position_le : walk.cursor.position ≤ markup.utf8ByteSize
  isValid : (⟨walk.cursor.position⟩ : String.Pos.Raw).IsValid markup
  lineStart_le : walk.cursor.lineStart ≤ walk.cursor.position
  consumes : walk.activity = .nodes → ∀ next, Relation.TransGen (Moves markup) walk next →
    Text.Consumes markup walk.cursor.position next.cursor.position
  calls : ∀ next, Moves markup walk next → CallStep markup walk next
  nested : walk.calls.Pairwise fun inner outer =>
    inner.routine = .nodes → Text.Consumes markup outer.start inner.start
  comment : ∀ start, walk.activity = .comment start →
    ∃ before unread, walk.IsAt markup before unread ∧ walk.LeavesComment markup unread

/-- A walk that ends can take a step. -/
theorem Ends.exists_step (ends : Ends markup walk result) :
    ∃ step, walk.step markup = some step := by
  cases ends with
  | last ended => exact ⟨_, ended⟩
  | step moves _ => exact ⟨_, moves⟩

/-- A walk goes one way only, so it ends as the walks on its way do. -/
theorem Ends.of_moves (ends : Ends markup walk result) (moves : Moves markup walk next) :
    Ends markup next result := by
  cases ends with
  | last ended => cases Eq.trans (Eq.symm ended) moves
  | step others ends =>
    cases Eq.trans (Eq.symm others) moves
    exact ends

theorem Ends.after_reaches (ends : Ends markup walk result) (reaches : Reaches markup walk next) :
    Ends markup next result := by
  induction reaches with
  | refl => exact ends
  | tail _ moves inductionHypothesis => exact inductionHypothesis.of_moves moves

namespace IsSound

theorem isValid (isSound : walk.IsSound markup) :
    (⟨walk.cursor.position⟩ : String.Pos.Raw).IsValid markup := by
  obtain ⟨before, unread, isAt⟩ := isSound.place
  exact isAt.isValid

theorem lineStart_le (isSound : walk.IsSound markup) :
    walk.cursor.lineStart ≤ walk.cursor.position := by
  obtain ⟨before, unread, isAt⟩ := isSound.place
  rw [isAt.cursor_eq]
  exact Cursor.lineStart_le_position before

/-- Once a walk has gone on from between two nodes, it has read something. -/
theorem consumes (isSound : walk.IsSound markup) (doing : walk.activity = .nodes)
    (later : Relation.TransGen (Moves markup) walk next) :
    Text.Consumes markup walk.cursor.position next.cursor.position := by
  obtain ⟨middle, moves, reaches⟩ := Relation.TransGen.head'_iff.1 later
  have middleSound := isSound.step moves
  have nextSound := isSound_of_reaches middleSound reaches
  have smaller : walk.cursor.position < next.cursor.position :=
    Nat.lt_of_lt_of_le (isSound.position_lt doing moves)
      (position_le_of_reaches middleSound reaches)
  exact Text.consumes_of_lt isSound.isValid nextSound.isValid smaller

/-- What a step does to calls follows from its effect. -/
theorem callStep (isSound : walk.IsSound markup) (moves : Moves markup walk next) :
    CallStep markup walk next := by
  obtain ⟨_, read, _, -, -, -, effect, -⟩ := isSound.exists_effect moves
  cases effect with
  | keeps calls_eq begun => exact .keeps calls_eq
  | begins routine notNodes calls_eq fresh => exact .begins routine notNodes calls_eq
  | enters calls_eq nonempty fresh => exact .enters calls_eq
  | ends ended calls_eq notFresh =>
    refine .ends ended calls_eq fun call member => ?_
    have inCalls : call ∈ walk.calls := calls_eq ▸ List.mem_append_left _ member
    have smaller := Nat.lt_of_lt_of_le (isSound.start_lt notFresh call inCalls)
      (isSound.position_le moves)
    exact Text.consumes_of_lt (isSound.starts call inCalls) (isSound.step moves).isValid smaller

/-- Lists of nodes begin behind what was read in the calls that they are in. -/
theorem consumes_nested (isSound : walk.IsSound markup) :
    walk.calls.Pairwise fun inner outer =>
      inner.routine = .nodes → Text.Consumes markup outer.start inner.start := by
  refine isSound.nested.imp_of_mem ?_
  intro inner outer innerMember outerMember before isNodes
  exact Text.consumes_of_lt (isSound.starts outer outerMember) (isSound.starts inner innerMember)
    (before isNodes)

end IsSound

/-- A walk through a text ends with the result of reading the text, be it nodes or an error; and
wherever it gets on its way, it goes on within the text. -/
theorem always_progresses (markup : String) :
    Ends markup .begin (Node.parse markup) ∧
    ∀ walk, Reaches markup .begin walk → walk.Progresses markup := by
  refine ⟨ends_parse markup, fun walk reaches => ?_⟩
  have isSound := isSound_of_reaches (isSound_begin markup) reaches
  have ends := (ends_parse markup).after_reaches reaches
  exact {
    steps := ends.exists_step
    ends := ends
    position_le := isSound.isValid.le_utf8ByteSize
    isValid := isSound.isValid
    lineStart_le := isSound.lineStart_le
    consumes := fun doing next later => isSound.consumes doing later
    calls := fun next moves => isSound.callStep moves
    nested := isSound.consumes_nested
    comment := by
      intro start doing
      obtain ⟨before, unread, isAt⟩ := isSound.place
      exact ⟨before, unread, isAt, isAt.leavesComment doing⟩ }

/-- In a list of items that is cut short, the items begin behind the list, and the error is at the
end of the text. -/
theorem always_progresses_nested : ∃ walk,
    Reaches "é<ul><li>" .begin walk ∧
    walk.calls = [⟨.nodes, 10⟩, ⟨.element, 6⟩, ⟨.nodes, 6⟩, ⟨.element, 2⟩, ⟨.nodes, 0⟩] ∧
    walk.Progresses "é<ul><li>" ∧
    Ends "é<ul><li>" walk (.error ⟨1, 11, .ending (some "</li>")⟩) := by
  have text : Reaches "é<ul><li>" .begin _ := .head rfl (.single rfl)
  have list := text.trans (.head rfl (.head rfl (.head rfl (.head rfl (.single rfl)))))
  have item := list.trans (.head rfl (.head rfl (.head rfl (.head rfl (.single rfl)))))
  have progresses := (always_progresses "é<ul><li>").2 _ item
  refine ⟨_, item, rfl, progresses, ?_⟩
  exact .last rfl

end Walk

end Templating
