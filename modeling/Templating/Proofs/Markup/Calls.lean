import Templating.Proofs.Markup.Walk

/-!
# The calls of a walk

A step of a walk reads on or turns to something else, begins a call, or ends some; `Walk.Effect`
says so of all steps at once, and `Walk.advances_of_stepOn` that there are no others. What holds of
the cursor and of the calls in progress in every walk that gets somewhere, `Walk.IsSound`, follows
from the effects of steps alone.
-/

namespace Templating

/-- Nothing need have been read since the innermost call was begun. -/
def Activity.IsFresh : Activity → Prop
  | .nodes => True
  | .attribute _ _ .name => True
  | _ => False

namespace Walk

/-- What a step that reads some characters does to the calls that a walk is in. -/
inductive Effect (walk next : Walk) (read : List Char) : Prop
  | keeps (calls_eq : next.calls = walk.calls)
      (begun : read = [] → walk.activity.IsFresh →
        ∀ call ∈ walk.calls.head?, call.start < walk.cursor.position)
  | begins (routine : Routine) (notNodes : routine ≠ .nodes)
      (calls_eq : next.calls = ⟨routine, walk.cursor.position⟩ :: walk.calls)
      (fresh : read = [] → next.activity.IsFresh ∧ ¬walk.activity.IsFresh)
  | enters (calls_eq : next.calls = ⟨.nodes, next.cursor.position⟩ :: walk.calls)
      (nonempty : read ≠ []) (fresh : next.activity.IsFresh)
  | ends (ended : List Call) (calls_eq : walk.calls = ended ++ next.calls)
      (notFresh : ¬walk.activity.IsFresh)

/-- A step goes past some of what is left to read, with one of the effects; between two nodes it
goes past a character at least. -/
def Advances (walk next : Walk) (unread : List Char) : Prop :=
  ∃ read rest, unread = read ++ rest ∧ next.cursor = walk.cursor.advance read ∧
    Effect walk next read ∧ (walk.activity = .nodes → read ≠ [])

variable {walk next : Walk} {markup : String} {unread rest : List Char}

section Steps

theorem fail_ne_next (fault : MarkupFault) : walk.fail fault ≠ some (.next next) := by
  intro same
  rw [fail, Option.bind_eq_bind, Option.bind_eq_some_iff] at same
  obtain ⟨column, -, ended⟩ := same
  cases ended

theorem calls_of_activity {activity : Activity} (doing : walk.activity = activity) :
    walk.calls = activity.calls ++ walk.outerCalls := by
  rw [calls, doing]

theorem not_isFresh_of_activity {activity : Activity} (doing : walk.activity = activity)
    (notFresh : ¬activity.IsFresh) : ¬walk.activity.IsFresh := by
  rwa [doing]

/-- A step that reads something may keep all calls. -/
theorem Effect.keeps_of_read {read : List Char} (nonempty : read ≠ [])
    (calls_eq : next.calls = walk.calls) : Effect walk next read :=
  .keeps calls_eq fun empty => absurd empty nonempty

/-- A step that reads something may begin a call in front of it. -/
theorem Effect.begins_of_read {read : List Char} (routine : Routine) (notNodes : routine ≠ .nodes)
    (nonempty : read ≠ [])
    (calls_eq : next.calls = ⟨routine, walk.cursor.position⟩ :: walk.calls) :
    Effect walk next read :=
  .begins routine notNodes calls_eq fun empty => absurd empty nonempty

/-- A step that goes past a character. -/
theorem advances_of_char (c : Char) (cursor_eq : next.cursor = walk.cursor.bump c)
    (effect : Effect walk next [c]) : walk.Advances next (c :: rest) :=
  ⟨[c], rest, rfl, cursor_eq, effect, fun _ => List.cons_ne_nil c []⟩

theorem advances_bump (c : Char) : walk.Advances (walk.bump c) (c :: rest) :=
  advances_of_char c rfl (.keeps_of_read (List.cons_ne_nil c []) rfl)

/-- A loop goes past a character, or does what comes after it. -/
theorem advances_of_loop {accepts : Char → Bool} {afterwards : Option Step}
    (stepped : walk.loop accepts unread afterwards = some (.next next))
    (advances : afterwards = some (.next next) → walk.Advances next unread) :
    walk.Advances next unread := by
  rw [loop.eq_def] at stepped
  split at stepped
  · exact advances stepped
  · split at stepped
    · cases stepped
      exact advances_bump _
    · exact advances stepped

/-- A step that goes past a mark. -/
theorem advances_of_mark (mark : List Char) (parts : unread = mark ++ rest)
    (unbroken : '\n' ∉ mark) (nonempty : mark ≠ [])
    (cursor_eq : next.cursor = walk.cursor.skip mark) (effect : Effect walk next mark) :
    walk.Advances next unread :=
  ⟨mark, rest, parts, cursor_eq.trans (Cursor.skip_eq_advance unbroken _), effect,
    fun _ => nonempty⟩

/-- A step that reads nothing. -/
theorem advances_of_turn (cursor_eq : next.cursor = walk.cursor) (effect : Effect walk next [])
    (notNodes : walk.activity ≠ .nodes) : walk.Advances next unread :=
  ⟨[], unread, rfl, cursor_eq, effect, fun doing => absurd doing notNodes⟩

theorem advances_of_stepNodes (doing : walk.activity = .nodes)
    (stepped : walk.stepNodes unread = some (.next next)) : walk.Advances next unread := by
  have calls_eq : walk.calls = walk.outerCalls := calls_of_activity doing
  rw [stepNodes.eq_def] at stepped
  split at stepped
  · split at stepped
    · cases stepped
    · exact absurd stepped (fail_ne_next _)
  · next c others =>
    split at stepped
    · next body found =>
      cases stepped
      refine advances_of_mark _ (Text.after?_eq_some_iff.1 found) (by decide) (by decide) rfl ?_
      refine .begins_of_read .comment (by decide) (by decide) ?_
      rw [calls_eq]
      rfl
    · split at stepped
      · next body found =>
        rw [Option.bind_eq_bind, Option.bind_eq_some_iff] at stepped
        obtain ⟨column, -, same⟩ := stepped
        cases same
        refine advances_of_mark _ (Text.after?_eq_some_iff.1 found) (by decide) (by decide) rfl ?_
        exact .keeps_of_read (by decide) calls_eq.symm
      · split at stepped
        · next opens =>
          obtain ⟨_, _, begins, -⟩ := Piece.opensMarkup_eq_true_iff.1 opens
          cases stepped
          refine advances_of_mark ['<'] begins (by decide) (by decide) rfl ?_
          refine .begins_of_read .element (by decide) (by decide) ?_
          rw [calls_eq]
          rfl
        · cases stepped
          refine advances_of_char c rfl ?_
          refine .begins_of_read .text (by decide) (List.cons_ne_nil c []) ?_
          rw [calls_eq]
          rfl

theorem advances_of_stepComment {start : Nat} (doing : walk.activity = .comment start)
    (stepped : walk.stepComment unread = some (.next next)) : walk.Advances next unread := by
  rw [stepComment.eq_def] at stepped
  split at stepped
  · next body found =>
    cases stepped
    refine advances_of_mark _ (Text.after?_eq_some_iff.1 found) (by decide) (by decide) rfl ?_
    exact .ends [⟨.comment, start⟩] (calls_of_activity doing) (not_isFresh_of_activity doing id)
  · split at stepped
    · exact absurd stepped (fail_ne_next _)
    · cases stepped
      exact advances_bump _

theorem advances_of_stepText {start : Nat} (doing : walk.activity = .text start)
    (stepped : walk.stepText markup start unread = some (.next next)) :
    walk.Advances next unread := by
  refine advances_of_loop stepped fun stepped => ?_
  rw [Option.bind_eq_bind, Option.bind_eq_some_iff] at stepped
  obtain ⟨content, -, same⟩ := stepped
  cases same
  refine advances_of_turn rfl ?_ (by simp [doing])
  exact .ends [⟨.text, start⟩] (calls_of_activity doing) (not_isFresh_of_activity doing id)

/-- A tag belongs to the call that it is read in. -/
theorem advances_of_stepTag {wordStart : Nat} {activity : String → Activity}
    (notFresh : ¬walk.activity.IsFresh)
    (calls_eq : ∀ tag, (activity tag).calls = walk.activity.calls)
    (stepped : walk.stepTag markup wordStart activity unread = some (.next next)) :
    walk.Advances next unread := by
  refine advances_of_loop stepped fun stepped => ?_
  rw [Option.bind_eq_bind, Option.bind_eq_some_iff] at stepped
  obtain ⟨tag, -, same⟩ := stepped
  split at same
  · exact absurd same (fail_ne_next _)
  · cases same
    refine advances_of_turn rfl (.keeps ?_ fun _ fresh => absurd fresh notFresh) ?_
    · rw [calls, calls, ← calls_eq]
      rfl
    · intro doing
      rw [doing] at notFresh
      exact notFresh trivial

theorem advances_of_stepClosingEnd {place : Location} {tag : String}
    (doing : walk.activity = .closingEnd place tag)
    (stepped : walk.stepClosingEnd place tag unread = some (.next next)) :
    walk.Advances next unread := by
  refine advances_of_loop stepped fun stepped => ?_
  split at stepped
  · next rest expected =>
    cases stepped
    refine advances_of_mark _ (Piece.expect_eq_ok_iff.1 expected) (by decide) (by decide) rfl ?_
    exact .keeps_of_read (by decide) (calls_of_activity doing).symm
  · exact absurd stepped (fail_ne_next _)

theorem advances_of_stepClosed {place : Location} {tag : String}
    (doing : walk.activity = .closed place tag)
    (stepped : walk.stepClosed place tag = some (.next next)) : walk.Advances next unread := by
  rw [stepClosed] at stepped
  split at stepped
  · cases stepped
  · next frame outer enclosing_eq =>
    split at stepped
    · cases stepped
      refine advances_of_turn rfl ?_ (by simp [doing])
      refine .ends [⟨.nodes, walk.start⟩, ⟨.element, frame.elementStart⟩] ?_
        (not_isFresh_of_activity doing id)
      rw [calls_of_activity doing, outerCalls, enclosing_eq]
      rfl
    · cases stepped

theorem advances_of_stepAttributes {opening : OpeningTag}
    (doing : walk.activity = .attributes opening)
    (stepped : walk.stepAttributes opening unread = some (.next next)) :
    walk.Advances next unread := by
  have notFresh := not_isFresh_of_activity doing id
  have calls_eq : walk.calls = ⟨.element, opening.start⟩ :: walk.outerCalls :=
    calls_of_activity doing
  refine advances_of_loop stepped fun stepped => ?_
  split at stepped
  · exact absurd stepped (fail_ne_next _)
  · next rest =>
    cases stepped
    exact advances_of_mark ['/', '>'] rfl (by decide) (by decide) rfl
      (.ends [_] calls_eq notFresh)
  · next rest =>
    split at stepped
    · cases stepped
      exact advances_of_mark ['>'] rfl (by decide) (by decide) rfl
        (.ends [_] calls_eq notFresh)
    · cases stepped
      refine advances_of_mark ['>'] rfl (by decide) (by decide) rfl ?_
      refine .enters ?_ (by decide) trivial
      rw [calls_eq]
      rfl
  · cases stepped
    refine advances_of_turn rfl ?_ (by simp [doing])
    refine .begins .attribute (by decide) ?_ fun _ => ⟨trivial, notFresh⟩
    rw [calls_eq]
    rfl

theorem advances_of_stepAttribute {opening : OpeningTag} {start : Nat} {part : AttributePart}
    (doing : walk.activity = .attribute opening start part)
    (stepped : walk.stepAttribute markup opening start part unread = some (.next next)) :
    walk.Advances next unread := by
  have calls_eq : walk.calls =
      ⟨.attribute, start⟩ :: ⟨.element, opening.start⟩ :: walk.outerCalls :=
    calls_of_activity doing
  have notNodes : walk.activity ≠ .nodes := by
    simp [doing]
  cases part with
  | name =>
    refine advances_of_loop stepped fun stepped => ?_
    rw [Option.bind_eq_bind, Option.bind_eq_some_iff] at stepped
    obtain ⟨name, sliced, same⟩ := stepped
    split at same
    · exact absurd same (fail_ne_next _)
    · next nonempty =>
      cases same
      refine advances_of_turn rfl (.keeps calls_eq.symm ?_) notNodes
      -- The name stands between the start of the attribute and the cursor.
      intro _ _ call isFirst
      rw [calls_eq] at isFirst
      cases isFirst
      obtain ⟨before, _, -, rfl, position_eq⟩ := Text.slice?_eq_some_iff.1 sliced
      rw [← position_eq, Text.byteSize_append]
      exact Nat.lt_add_of_pos_right (Text.byteSize_pos_iff.2 nonempty)
  | equals name =>
    have notFresh := not_isFresh_of_activity doing id
    refine advances_of_loop stepped fun stepped => ?_
    split at stepped
    · cases stepped
      exact advances_of_mark ['='] rfl (by decide) (by decide) rfl
        (.keeps_of_read (by decide) calls_eq.symm)
    · cases stepped
      exact advances_of_turn rfl (.ends [_] calls_eq notFresh) notNodes
  | value name =>
    have notFresh := not_isFresh_of_activity doing id
    refine advances_of_loop stepped fun stepped => ?_
    split at stepped
    · exact absurd stepped (fail_ne_next _)
    · next c others _ =>
      split at stepped
      · cases stepped
        exact advances_of_char c rfl (.keeps_of_read (List.cons_ne_nil c []) calls_eq.symm)
      · cases stepped
        exact advances_of_turn rfl
          (.keeps calls_eq.symm fun _ fresh => absurd fresh notFresh) notNodes
  | quoted name quote wordStart =>
    have notFresh := not_isFresh_of_activity doing id
    refine advances_of_loop stepped fun stepped => ?_
    rw [Option.bind_eq_bind, Option.bind_eq_some_iff] at stepped
    obtain ⟨value, -, same⟩ := stepped
    split at same
    · next rest expected =>
      cases same
      rw [Piece.expect_eq_ok_iff.1 expected, String.toList_ofList]
      exact advances_of_char quote.val (congrArg cursor (skip_quote walk quote))
        (.ends [_] calls_eq notFresh)
    · exact absurd same (fail_ne_next _)
  | bare name wordStart =>
    have notFresh := not_isFresh_of_activity doing id
    refine advances_of_loop stepped fun stepped => ?_
    rw [Option.bind_eq_bind, Option.bind_eq_some_iff] at stepped
    obtain ⟨value, -, same⟩ := stepped
    cases same
    exact advances_of_turn rfl (.ends [_] calls_eq notFresh) notNodes

/-- Whatever a walk is doing, its step goes on in one of these ways. -/
theorem advances_of_stepOn (stepped : walk.stepOn markup unread = some (.next next)) :
    walk.Advances next unread := by
  rw [stepOn] at stepped
  split at stepped
  · next doing => exact advances_of_stepNodes doing stepped
  · next doing => exact advances_of_stepComment doing stepped
  · next doing => exact advances_of_stepText doing stepped
  · next doing =>
    refine advances_of_stepTag (not_isFresh_of_activity doing id) (fun _ => ?_) stepped
    rw [doing]
    rfl
  · next doing => exact advances_of_stepClosingEnd doing stepped
  · next doing => exact advances_of_stepClosed doing stepped
  · next doing =>
    refine advances_of_stepTag (not_isFresh_of_activity doing id) (fun _ => ?_) stepped
    rw [doing]
    rfl
  · next doing => exact advances_of_stepAttributes doing stepped
  · next doing => exact advances_of_stepAttribute doing stepped

end Steps

section Soundness

/-- What a walk that has got somewhere knows of its place and of its calls. It has read something in
each of them, but for the innermost one while that is fresh; and lists of nodes begin behind the
beginnings of all calls around them. -/
structure IsSound (walk : Walk) (markup : String) : Prop where
  place : ∃ before unread, walk.IsAt markup before unread
  starts : ∀ call ∈ walk.calls, (⟨call.start⟩ : String.Pos.Raw).IsValid markup
  begun : ∀ call ∈ walk.calls, call.start < walk.cursor.position ∨
    walk.activity.IsFresh ∧ walk.calls.head? = some call ∧ call.start = walk.cursor.position
  nested : walk.calls.Pairwise fun inner outer =>
    inner.routine = .nodes → outer.start < inner.start

/-- A walk stands between two characters. -/
theorem IsAt.isValid {before : List Char} (isAt : walk.IsAt markup before unread) :
    (⟨walk.cursor.position⟩ : String.Pos.Raw).IsValid markup :=
  Text.isValid_iff.2 ⟨before, unread, isAt.parts, isAt.position_eq.symm⟩

theorem isSound_begin (markup : String) : Walk.begin.IsSound markup where
  place := ⟨[], markup.toList, .begin markup⟩
  starts := by
    intro call member
    cases List.mem_singleton.1 member
    exact (IsAt.begin markup).isValid
  begun := by
    intro call member
    cases List.mem_singleton.1 member
    exact .inr ⟨trivial, rfl, rfl⟩
  nested := List.pairwise_singleton _ _

namespace IsSound

/-- Calls began at the cursor or before it. -/
theorem start_le (isSound : walk.IsSound markup) : ∀ call ∈ walk.calls,
    call.start ≤ walk.cursor.position := by
  intro call member
  rcases isSound.begun call member with before | ⟨-, -, same⟩
  · exact Nat.le_of_lt before
  · exact Nat.le_of_eq same

/-- Where the innermost call is not fresh, all calls began before the cursor. -/
theorem start_lt (isSound : walk.IsSound markup) (notFresh : ¬walk.activity.IsFresh) :
    ∀ call ∈ walk.calls, call.start < walk.cursor.position := by
  intro call member
  rcases isSound.begun call member with before | ⟨fresh, -⟩
  · exact before
  · exact absurd fresh notFresh

/-- A step of a sound walk, with the characters that it reads. -/
theorem exists_effect (isSound : walk.IsSound markup) (moves : Moves markup walk next) :
    ∃ before read rest, walk.IsAt markup before (read ++ rest) ∧
      next.IsAt markup (before ++ read) rest ∧
      next.cursor.position = walk.cursor.position + Text.byteSize read ∧ Effect walk next read ∧
      (walk.activity = .nodes → read ≠ []) := by
  obtain ⟨before, unread, isAt⟩ := isSound.place
  obtain ⟨read, rest, rfl, cursor_eq, effect, reads⟩ :=
    advances_of_stepOn (isAt.step_eq.symm.trans moves)
  have nextAt : next.IsAt markup (before ++ read) rest := ⟨isAt.past.parts, by
    rw [cursor_eq, isAt.cursor_eq, Cursor.advance_append]⟩
  refine ⟨before, read, rest, isAt, nextAt, ?_, effect, reads⟩
  rw [cursor_eq, Cursor.position_advance]

/-- A walk does not go back. -/
theorem position_le (isSound : walk.IsSound markup) (moves : Moves markup walk next) :
    walk.cursor.position ≤ next.cursor.position := by
  obtain ⟨_, read, _, -, -, position_eq, -⟩ := isSound.exists_effect moves
  exact position_eq ▸ Nat.le_add_right _ _

/-- Between two nodes, a step goes past a character. -/
theorem position_lt (isSound : walk.IsSound markup) (doing : walk.activity = .nodes)
    (moves : Moves markup walk next) : walk.cursor.position < next.cursor.position := by
  obtain ⟨_, read, _, -, -, position_eq, -, reads⟩ := isSound.exists_effect moves
  have positive := Text.byteSize_pos_iff.2 (reads doing)
  omega

/-- A step keeps a walk sound. -/
theorem step (isSound : walk.IsSound markup) (moves : Moves markup walk next) :
    next.IsSound markup := by
  obtain ⟨before, read, rest, isAt, nextAt, position_eq, effect, -⟩ := isSound.exists_effect moves
  have before_of_reads (reads : read ≠ []) : ∀ call ∈ walk.calls,
      call.start < next.cursor.position := by
    intro call member
    have start_le := isSound.start_le call member
    have positive := Text.byteSize_pos_iff.2 reads
    omega
  cases effect with
  | keeps same begun =>
    refine ⟨⟨_, _, nextAt⟩, same ▸ isSound.starts, ?_, same ▸ isSound.nested⟩
    intro call member
    rw [same] at member
    refine .inl ?_
    by_cases reads : read = []
    · rw [position_eq, reads, Text.byteSize_nil, Nat.add_zero]
      rcases isSound.begun call member with before | ⟨fresh, isFirst, -⟩
      · exact before
      · exact begun reads fresh call isFirst
    · exact before_of_reads reads call member
  | begins routine notNodes begun fresh =>
    refine ⟨⟨_, _, nextAt⟩, ?starts, ?begun, ?nested⟩
    case starts =>
      rw [begun]
      exact List.forall_mem_cons.2 ⟨isAt.isValid, isSound.starts⟩
    case begun =>
      intro call member
      -- A call that begins where nothing is read is fresh, and the call around it is not.
      by_cases reads : read = []
      · obtain ⟨nextFresh, notFresh⟩ := fresh reads
        rw [reads, Text.byteSize_nil, Nat.add_zero] at position_eq
        rw [begun, List.mem_cons] at member
        rcases member with rfl | member
        · exact .inr ⟨nextFresh, by rw [begun, List.head?_cons], position_eq.symm⟩
        · rw [position_eq]
          exact .inl (isSound.start_lt notFresh call member)
      · have positive := Text.byteSize_pos_iff.2 reads
        rw [begun, List.mem_cons] at member
        rcases member with rfl | member
        · exact .inl (by rw [position_eq]; exact Nat.lt_add_of_pos_right positive)
        · exact .inl (before_of_reads reads call member)
    case nested =>
      rw [begun]
      exact List.pairwise_cons.2 ⟨fun _ _ isNodes => absurd isNodes notNodes, isSound.nested⟩
  | enters begun nonempty fresh =>
    refine ⟨⟨_, _, nextAt⟩, ?starts, ?begun, ?nested⟩
    case starts =>
      rw [begun]
      exact List.forall_mem_cons.2 ⟨nextAt.isValid, isSound.starts⟩
    case begun =>
      intro call member
      rw [begun, List.mem_cons] at member
      rcases member with rfl | member
      · exact .inr ⟨fresh, by rw [begun, List.head?_cons], rfl⟩
      · exact .inl (before_of_reads nonempty call member)
    case nested =>
      rw [begun]
      exact List.pairwise_cons.2 ⟨fun call member _ => before_of_reads nonempty call member,
        isSound.nested⟩
  | ends ended same notFresh =>
    have inCalls : ∀ call ∈ next.calls, call ∈ walk.calls := fun call member =>
      same ▸ List.mem_append_right ended member
    refine ⟨⟨_, _, nextAt⟩, fun call member => isSound.starts call (inCalls call member), ?_, ?_⟩
    · intro call member
      have before := isSound.start_lt notFresh call (inCalls call member)
      exact .inl (by omega)
    · have nested := isSound.nested
      rw [same] at nested
      exact (List.pairwise_append.1 nested).2.1

end IsSound

/-- Every walk that gets somewhere stays sound on its way. -/
theorem isSound_of_reaches (isSound : walk.IsSound markup) (reaches : Reaches markup walk next) :
    next.IsSound markup := by
  induction reaches with
  | refl => exact isSound
  | tail _ moves inductionHypothesis => exact inductionHypothesis.step moves

/-- A walk that gets somewhere does not go back. -/
theorem position_le_of_reaches (isSound : walk.IsSound markup)
    (reaches : Reaches markup walk next) : walk.cursor.position ≤ next.cursor.position := by
  induction reaches with
  | refl => exact Nat.le_refl _
  | tail prior moves inductionHypothesis =>
    exact Nat.le_trans inductionHypothesis ((isSound_of_reaches isSound prior).position_le moves)

end Soundness

end Walk

end Templating
