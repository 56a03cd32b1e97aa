import Mathlib.Data.List.Induction
import Templating.Proofs.Markup.Walk

/-!
# Where walks end

What a walk does with a tag, an attribute or a whole piece is what the scanner of it does. Where the
scanner finds a value, the walk gets behind it with the same value, and where the scanner stops, the
walk ends with that fault; `Walk.Follows` says both. So a walk ends, and with the result of
`Node.parse`, by `Walk.ends_parse`.
-/

namespace Templating

namespace Piece

/-- A value behind an equals sign, or none, and the rest. -/
def scanOptionalValue (input : List Char) : Except Stop (List Char × List Char) :=
  match Text.trimStart input with
  | '=' :: rest => scanValue (Text.trimStart rest)
  | rest => .ok ([], rest)

/-- An attribute is a name and a value, which may be missing. -/
theorem scanAttribute_eq (input : List Char) : scanAttribute input =
    if input.takeWhile isNameChar = [] then .error ⟨.missing "attribute name", input⟩
    else (scanOptionalValue (input.dropWhile isNameChar)).map fun found =>
      (⟨String.ofList (input.takeWhile isNameChar), String.ofList (Entity.decode found.1)⟩,
        found.2) := by
  have decoded : Entity.decode [] = [] := Entity.decode_of_decodes .nil
  rw [scanAttribute, scanOptionalValue]
  generalize Text.trimStart (input.dropWhile isNameChar) = trimmed
  congr 1
  split
  · rfl
  · simp only [Except.map, decoded, String.ofList_nil]

/-- Where a mark is missing, nothing is taken. -/
theorem unread_of_expect {mark : String} {input : List Char} {stop : Stop}
    (failed : expect mark input = .error stop) : stop.unread = input := by
  rw [expect] at failed
  split at failed
  · cases failed
  · split at failed
    · next empty =>
      cases failed
      exact empty.symm
    · cases failed
      rfl

end Piece

namespace Walk

variable {walk next middle : Walk} {markup : String} {before input unread rest read : List Char}
  {result : Except MarkupError (List Node)}

theorem Ends.of_reaches (reaches : Reaches markup walk next) (ends : Ends markup next result) :
    Ends markup walk result := by
  induction reaches using Relation.ReflTransGen.head_induction_on with
  | refl => exact ends
  | head moves _ inductionHypothesis => exact .step moves inductionHypothesis

namespace IsAt

theorem moves (isAt : walk.IsAt markup before unread)
    (stepped : walk.stepOn markup unread = some (.next next)) : Moves markup walk next :=
  isAt.step_eq.trans stepped

theorem ends (isAt : walk.IsAt markup before unread)
    (stepped : walk.stepOn markup unread = some (.ended result)) : Ends markup walk result :=
  .last (isAt.step_eq.trans stepped)

/-- A walk that stops with a fault ends with the error at its place. -/
theorem ends_fail {fault : MarkupFault} (isAt : walk.IsAt markup before unread)
    (stepped : walk.stepOn markup unread = walk.fail fault) :
    Ends markup walk (.error (Node.errorAt markup.toList ⟨fault, unread⟩)) :=
  isAt.ends (stepped.trans (isAt.fail_eq fault))

end IsAt

section Loops

/-- A walk goes past some characters one by one, and does nothing else. -/
def Loops (walk : Walk) (markup : String) (read : List Char) : Prop :=
  ∀ front c back, read = front ++ c :: back →
    Moves markup (walk.past front) (walk.past (front ++ [c]))

/-- A loop gets behind what it goes past. -/
theorem Loops.reaches (loops : walk.Loops markup read) : Reaches markup walk (walk.past read) := by
  induction read using List.reverseRecOn with
  | nil => exact .refl
  | append_singleton front c inductionHypothesis =>
    have prior : walk.Loops markup front := by
      intro first d others same
      exact loops first d (others ++ [c]) (by rw [same, List.append_assoc, List.cons_append])
    exact (inductionHypothesis prior).tail (loops front c [] rfl)

/-- A walk loops where each step goes past one character. -/
theorem IsAt.loops (isAt : walk.IsAt markup before (read ++ rest))
    (stepped : ∀ front c back, read = front ++ c :: back →
      (walk.past front).stepOn markup (c :: (back ++ rest)) =
        some (.next ((walk.past front).bump c))) : walk.Loops markup read := by
  intro front c back same
  have atFront : (walk.past front).IsAt markup (before ++ front) (c :: (back ++ rest)) := by
    apply IsAt.past
    rwa [same, List.append_assoc, List.cons_append] at isAt
  have bumped : walk.past (front ++ [c]) = (walk.past front).bump c := (past_past _ _ _).symm
  rw [bumped]
  exact atFront.moves (stepped front c back same)

/-- A walk loops while characters are accepted. -/
theorem IsAt.loops_of_accepted {accepts : Char → Bool}
    (isAt : walk.IsAt markup before (read ++ rest))
    (accepted : ∀ c ∈ read, accepts c = true)
    (stepped : ∀ front unread, ∃ afterwards, (walk.past front).stepOn markup unread =
      (walk.past front).loop accepts unread afterwards) : walk.Loops markup read := by
  refine isAt.loops ?_
  rintro front c back rfl
  obtain ⟨afterwards, same⟩ := stepped front (c :: (back ++ rest))
  rw [same]
  exact if_pos (accepted c (List.mem_append_right _ List.mem_cons_self))

/-- A loop is left where nothing is accepted. -/
theorem loop_of_ends {accepts : Char → Bool} (ended : Text.Ends accepts unread)
    (afterwards : Option Step) : walk.loop accepts unread afterwards = afterwards := by
  cases unread with
  | nil => rfl
  | cons c others => exact if_neg (Bool.eq_false_iff.1 (ended c rfl))

end Loops

section Follows

/-- A walk does what a scanner does: it arrives where a value was found, with what was read, and
ends with the error where the scanner stops. -/
def Follows {α : Type} (walk : Walk) (markup : String) (input : List Char)
    (outcome : Except Stop (α × List Char)) (arrived : α → List Char → Walk) : Prop :=
  match outcome with
  | .ok (value, rest) => ∃ read, input = read ++ rest ∧ Reaches markup walk (arrived value read)
  | .error stop => Ends markup walk (.error (Node.errorAt markup.toList stop))

variable {α β : Type} {arrived : α → List Char → Walk} {outcome : Except Stop (α × List Char)}

/-- A walk does what it does from where it gets to. -/
theorem Follows.of_reaches (front : List Char) (reaches : Reaches markup walk middle)
    (parts : input = front ++ unread)
    (follows : middle.Follows markup unread outcome fun value read =>
      arrived value (front ++ read)) :
    walk.Follows markup input outcome arrived := by
  cases outcome with
  | error stop => exact .of_reaches reaches follows
  | ok found =>
    obtain ⟨value, rest⟩ := found
    obtain ⟨read, rfl, more⟩ := follows
    exact ⟨front ++ read, by rw [parts, List.append_assoc], reaches.trans more⟩

/-- A value that is found may be made into another one. -/
theorem Follows.map {arrived : β → List Char → Walk} {f : α → β}
    (follows : walk.Follows markup input outcome fun value read => arrived (f value) read) :
    walk.Follows markup input (outcome.map fun found => (f found.1, found.2)) arrived := by
  cases outcome with
  | error stop => exact follows
  | ok found => exact follows

/-- A scanner may go on where another one has found something. -/
theorem Follows.bind {arrivedLast : β → List Char → Walk}
    {scan : α × List Char → Except Stop (β × List Char)}
    (follows : walk.Follows markup input outcome arrived)
    (more : ∀ value read rest, input = read ++ rest →
      (arrived value read).Follows markup rest (scan (value, rest))
        fun last others => arrivedLast last (read ++ others)) :
    walk.Follows markup input (outcome >>= scan) arrivedLast := by
  cases outcome with
  | error stop => exact follows
  | ok found =>
    obtain ⟨value, rest⟩ := found
    obtain ⟨read, parts, reaches⟩ := follows
    exact Follows.of_reaches read reaches parts (more value read rest parts)

end Follows

section Words

/-- A walk that is in a tag reads it as it is scanned. -/
theorem IsAt.follows_scanTag {wordStart : Nat} {activity : String → Activity}
    (isAt : walk.IsAt markup before input) (starts : wordStart = Text.byteSize before)
    (stepped : ∀ front unread, (walk.past front).stepOn markup unread =
      (walk.past front).stepTag markup wordStart activity unread) :
    walk.Follows markup input (Piece.scanTag input)
      fun tag read => (walk.past read).turn (activity (String.ofList tag)) := by
  generalize isTag : input.takeWhile isTagChar = tag
  generalize isRest : input.dropWhile isTagChar = rest
  obtain ⟨rfl, accepted, ended⟩ := Text.eq_run_iff.1 ⟨isTag, isRest⟩
  have loops := isAt.loops_of_accepted accepted fun front unread => ⟨_, stepped front unread⟩
  have behind := isAt.past
  have last : (walk.past tag).stepOn markup rest =
      if tag = [] then (walk.past tag).fail (.missing "tag name")
      else some (.next ((walk.past tag).turn (activity (String.ofList tag)))) := by
    rw [stepped, stepTag, loop_of_ends ended, starts, behind.slice_eq]
    rfl
  rw [Piece.scanTag, isTag, isRest]
  by_cases empty : tag = []
  · subst empty
    rw [if_pos rfl] at last ⊢
    exact isAt.ends_fail last
  · rw [if_neg empty] at last
    simp only [if_neg empty]
    exact ⟨tag, rfl, loops.reaches.tail (behind.moves last)⟩

variable {opening : OpeningTag} {start : Nat} {name : String}

theorem stepOn_past_attribute (markup : String) {part : AttributePart}
    (doing : walk.activity = .attribute opening start part) (front unread : List Char) :
    (walk.past front).stepOn markup unread =
      (walk.past front).stepAttribute markup opening start part unread := by
  rw [stepOn, activity_past, doing]

/-- A walk behind an opening quote goes on to the next quote of its kind. -/
theorem IsAt.follows_quoted {quote : Quote} {wordStart : Nat}
    (isAt : walk.IsAt markup before input) (starts : wordStart = Text.byteSize before)
    (doing : walk.activity = .attribute opening start (.quoted name quote wordStart)) :
    walk.Follows markup input
      (match Text.cutAt? [quote.val] input with
      | some (value, rest) => .ok (value, rest)
      | none => .error ⟨.ending (some (String.ofList [quote.val])), []⟩)
      fun value read => (walk.past read).addAttribute opening name (Entity.decode value) := by
  have stepped := stepOn_past_attribute markup doing
  have loops {value others : List Char} (parts : input = value ++ others)
      (absent : quote.val ∉ value) : walk.Loops markup value := by
    subst parts
    have accepted : ∀ c ∈ value, (c != quote.val) = true := fun c member =>
      bne_iff_ne.2 fun same => absent (same ▸ member)
    exact isAt.loops_of_accepted accepted fun front unread => ⟨_, stepped front unread⟩
  cases cut : Text.cutAt? [quote.val] input with
  | some parts =>
    obtain ⟨value, rest⟩ := parts
    obtain ⟨rfl, absent⟩ := Text.cutAt?_singleton_eq_some_iff.1 cut
    have behind := isAt.past
    have ended : Text.Ends (· != quote.val) (quote.val :: rest) :=
      Text.Ends.cons (bne_self_eq_false quote.val)
    have expected : Piece.expect (String.ofList [quote.val]) (quote.val :: rest) = .ok rest :=
      Piece.expect_eq_ok_iff.2 (by rw [String.toList_ofList]; rfl)
    have last : (walk.past value).stepOn markup (quote.val :: rest) =
        some (.next ((walk.past (value ++ [quote.val])).addAttribute opening name
          (Entity.decode value))) := by
      rw [stepped, stepAttribute, loop_of_ends ended, starts, behind.slice_eq, ← past_past,
        ← skip_quote]
      simp only [expected]
      rfl
    exact ⟨value ++ [quote.val], by simp, (loops rfl absent).reaches.tail (behind.moves last)⟩
  | none =>
    have absent := Text.cutAt?_singleton_eq_none_iff.1 cut
    have behind : (walk.past input).IsAt markup (before ++ input) [] :=
      IsAt.past (by rwa [List.append_nil])
    have expected : Piece.expect (String.ofList [quote.val]) [] =
        .error ⟨.ending (some (String.ofList [quote.val])), []⟩ := by
      rw [Piece.expect, String.toList_ofList]
      rfl
    have last : (walk.past input).stepOn markup [] =
        (walk.past input).fail (.ending (some (String.ofList [quote.val]))) := by
      rw [stepped, stepAttribute, loop_of_ends Text.Ends.nil, starts, behind.slice_eq]
      simp only [expected]
      rfl
    have reaches := (loops (List.append_nil input).symm absent).reaches
    exact Ends.of_reaches reaches (behind.ends_fail last)

/-- A walk in a value without quotes goes on to its end. -/
theorem IsAt.follows_bare {wordStart : Nat} (isAt : walk.IsAt markup before input)
    (starts : wordStart = Text.byteSize before)
    (doing : walk.activity = .attribute opening start (.bare name wordStart)) :
    walk.Follows markup input (.ok (input.takeWhile isBareChar, input.dropWhile isBareChar))
      fun value read => (walk.past read).addAttribute opening name (Entity.decode value) := by
  generalize isValue : input.takeWhile isBareChar = value
  generalize isRest : input.dropWhile isBareChar = rest
  obtain ⟨rfl, accepted, ended⟩ := Text.eq_run_iff.1 ⟨isValue, isRest⟩
  have stepped := stepOn_past_attribute markup doing
  have loops := isAt.loops_of_accepted accepted fun front unread => ⟨_, stepped front unread⟩
  have behind := isAt.past
  have last : (walk.past value).stepOn markup rest =
      some (.next ((walk.past value).addAttribute opening name (Entity.decode value))) := by
    rw [stepped, stepAttribute, loop_of_ends ended, starts, behind.slice_eq]
    rfl
  exact ⟨value, rfl, loops.reaches.tail (behind.moves last)⟩

/-- A walk in front of a value reads it as it is scanned. -/
theorem IsAt.follows_scanValue (isAt : walk.IsAt markup before input)
    (doing : walk.activity = .attribute opening start (.value name))
    (ended : Text.Ends Text.isBlank input) :
    walk.Follows markup input (Piece.scanValue input)
      fun value read => (walk.past read).addAttribute opening name (Entity.decode value) := by
  have stepped : walk.stepOn markup input =
      walk.stepAttribute markup opening start (.value name) input := by
    rw [stepOn, doing]
  simp only [stepAttribute, loop_of_ends ended] at stepped
  cases input with
  | nil => exact isAt.ends_fail stepped
  | cons c rest =>
    simp only [Piece.scanValue]
    by_cases isQuote : c = '"' ∨ c = '\''
    · simp only [isQuote, dite_true] at stepped
      rw [if_pos isQuote]
      have inside : (walk.past [c]).IsAt markup (before ++ [c]) rest := isAt.past
      let part := AttributePart.quoted name ⟨c, isQuote⟩ (walk.past [c]).cursor.position
      have quoted : ((walk.past [c]).turn (.attribute opening start part)).activity =
        .attribute opening start part := rfl
      refine .of_reaches [c] (.single (isAt.moves stepped)) rfl ?_
      exact (inside.turn _).follows_quoted inside.position_eq quoted
    · simp only [isQuote, dite_false] at stepped
      rw [if_neg isQuote]
      refine .of_reaches [] (.single (isAt.moves stepped)) rfl ?_
      exact (isAt.turn _).follows_bare isAt.position_eq rfl

/-- A walk goes past blanks in front of what it is to do. -/
theorem IsAt.exists_blanks (isAt : walk.IsAt markup before input)
    (stepped : ∀ front unread, ∃ afterwards, (walk.past front).stepOn markup unread =
      (walk.past front).loop Text.isBlank unread afterwards) :
    ∃ blanks, input = blanks ++ Text.trimStart input ∧ Reaches markup walk (walk.past blanks) ∧
      (walk.past blanks).IsAt markup (before ++ blanks) (Text.trimStart input) := by
  obtain ⟨blanks, areBlank, parts⟩ := Text.exists_blanks_append_trimStart input
  rw [parts] at isAt
  exact ⟨blanks, parts, (isAt.loops_of_accepted areBlank stepped).reaches, isAt.past⟩

/-- A walk behind the name of an attribute reads the value, if there is one. -/
theorem IsAt.follows_scanOptionalValue (isAt : walk.IsAt markup before input)
    (doing : walk.activity = .attribute opening start (.equals name)) :
    walk.Follows markup input (Piece.scanOptionalValue input)
      fun value read => (walk.past read).addAttribute opening name (Entity.decode value) := by
  have stepped := stepOn_past_attribute markup doing
  obtain ⟨blanks, parts, reaches, behind⟩ :=
    isAt.exists_blanks fun front unread => ⟨_, stepped front unread⟩
  have last := stepped blanks (Text.trimStart input)
  simp only [stepAttribute, loop_of_ends (Text.ends_trimStart input)] at last
  refine .of_reaches blanks reaches parts ?_
  rw [Piece.scanOptionalValue]
  generalize Text.trimStart input = trimmed at last behind
  split
  · next rest =>
    rw [skip_eq_past (by decide)] at last
    have inside : ((walk.past blanks).past ['=']).IsAt markup (before ++ blanks ++ ['=']) rest :=
      behind.past
    have atEquals := inside.turn (.attribute opening start (.value name))
    refine .of_reaches ['='] (.single (behind.moves last)) rfl ?_
    obtain ⟨others, otherParts, more, atValue⟩ :=
      atEquals.exists_blanks fun front unread => ⟨_, rfl⟩
    refine .of_reaches others more otherParts ?_
    simp only [← past_past]
    exact atValue.follows_scanValue rfl (Text.ends_trimStart rest)
  · next noEquals =>
    have finished : (walk.past blanks).stepOn markup trimmed =
        some (.next ((walk.past blanks).addAttribute opening name [])) := by
      rw [last]
      split
      · next rest => exact absurd rfl (noEquals rest)
      · rfl
    have decoded : Entity.decode [] = [] := by rw [Entity.decode]
    refine ⟨[], rfl, ?_⟩
    simp only [List.append_nil, decoded]
    exact .single (behind.moves finished)

/-- A walk in front of an attribute reads it as it is scanned. -/
theorem IsAt.follows_scanAttribute (isAt : walk.IsAt markup before input)
    (doing : walk.activity = .attribute opening start .name)
    (starts : start = Text.byteSize before) :
    walk.Follows markup input (Piece.scanAttribute input) fun entry read =>
      (walk.past read).turn
        (.attributes { opening with attributes := opening.attributes ++ [entry] }) := by
  generalize isName : input.takeWhile isNameChar = name
  generalize isRest : input.dropWhile isNameChar = rest
  obtain ⟨rfl, accepted, ended⟩ := Text.eq_run_iff.1 ⟨isName, isRest⟩
  have stepped := stepOn_past_attribute markup doing
  have loops := isAt.loops_of_accepted accepted fun front unread => ⟨_, stepped front unread⟩
  have behind := isAt.past
  have last : (walk.past name).stepOn markup rest =
      if name = [] then (walk.past name).fail (.missing "attribute name")
      else some (.next ((walk.past name).turn
        (.attribute opening start (.equals (String.ofList name))))) := by
    rw [stepped, stepAttribute, loop_of_ends ended, starts, behind.slice_eq]
    rfl
  rw [Piece.scanAttribute_eq, isName, isRest]
  by_cases empty : name = []
  · subst empty
    rw [if_pos rfl] at last ⊢
    exact isAt.ends_fail last
  · rw [if_neg empty] at last ⊢
    refine .of_reaches name (loops.reaches.tail (behind.moves last)) rfl ?_
    let named (value : List Char) : Attribute :=
      ⟨String.ofList name, String.ofList (Entity.decode value)⟩
    refine Follows.map (f := named) ?_
    simp only [← past_past]
    exact (behind.turn _).follows_scanOptionalValue rfl

end Words

section Pieces

/-- A walk behind the end of an opening tag. An element may have no nodes, by its tag or by the end
of the tag. -/
def finish (walk : Walk) (opening : OpeningTag) (closed : Bool) : Walk :=
  if closed || isVoidTag opening.tag then walk.add (.element opening.tag opening.attributes [])
  else walk.enter opening

/-- A walk between two attributes goes past blanks. -/
theorem IsAt.exists_stepAttributes {opening : OpeningTag} (isAt : walk.IsAt markup before input)
    (doing : walk.activity = .attributes opening) (trimmed : Text.trimStart input = unread) :
    ∃ blanks, input = blanks ++ unread ∧ Reaches markup walk (walk.past blanks) ∧
      (walk.past blanks).IsAt markup (before ++ blanks) unread ∧
      (walk.past blanks).stepOn markup unread =
        (walk.past blanks).stepAttributes opening unread := by
  have stepped (front unread : List Char) : (walk.past front).stepOn markup unread =
      (walk.past front).stepAttributes opening unread := by
    rw [stepOn, activity_past, doing]
  obtain ⟨blanks, parts, reaches, behind⟩ :=
    isAt.exists_blanks fun front unread => ⟨_, stepped front unread⟩
  rw [trimmed] at parts behind
  exact ⟨blanks, parts, reaches, behind, stepped blanks unread⟩

/-- A walk between two attributes turns to the next one where the tag does not end. -/
theorem stepAttributes_cons {opening : OpeningTag} {c : Char}
    (trimmed : Text.trimStart input = c :: rest) (notOpened : c ≠ '>')
    (notClosed : ∀ others, c = '/' → rest = '>' :: others → False) :
    walk.stepAttributes opening (c :: rest) =
      some (.next (walk.turn (.attribute opening walk.cursor.position .name))) := by
  rw [stepAttributes.eq_def, loop_of_ends (trimmed ▸ Text.ends_trimStart input)]
  split
  · next same => cases same
  · next others same =>
    obtain ⟨isSlash, isEnd⟩ := List.cons.inj same
    exact (notClosed others isSlash isEnd).elim
  · next same => exact absurd (List.cons.inj same).1 notOpened
  · rfl

/-- A walk between two attributes reads the others as they are scanned. -/
theorem IsAt.follows_scanAttributes {opening : OpeningTag} (isAt : walk.IsAt markup before input)
    (doing : walk.activity = .attributes opening) :
    walk.Follows markup input
      ((Piece.scanAttributes input).map fun found => ((found.1, found.2.1), found.2.2))
      fun found read => (walk.past read).finish
        { opening with attributes := opening.attributes ++ found.1 } found.2 := by
  -- The scanner puts attributes in front of later ones, the walk behind earlier ones, so the
  -- opening tag is general.
  fun_induction Piece.scanAttributes input generalizing walk before opening with
  | case1 input trimmed =>
    obtain ⟨blanks, -, reaches, behind, stepped⟩ := isAt.exists_stepAttributes doing trimmed
    exact Ends.of_reaches reaches (behind.ends_fail stepped)
  | case2 input rest trimmed =>
    obtain ⟨blanks, parts, reaches, behind, stepped⟩ := isAt.exists_stepAttributes doing trimmed
    have last : (walk.past blanks).stepOn markup ('/' :: '>' :: rest) =
        some (.next (((walk.past blanks).skip ['/', '>']).finish opening true)) := stepped
    rw [skip_eq_past (by decide), past_past] at last
    refine ⟨blanks ++ ['/', '>'], by rw [parts]; simp, ?_⟩
    simp only [List.append_nil]
    exact reaches.tail (behind.moves last)
  | case3 input rest trimmed =>
    obtain ⟨blanks, parts, reaches, behind, stepped⟩ := isAt.exists_stepAttributes doing trimmed
    have last : (walk.past blanks).stepOn markup ('>' :: rest) =
        some (.next (((walk.past blanks).skip ['>']).finish opening false)) := by
      rw [stepped, finish, Bool.false_or, apply_ite (fun walk => some (Step.next walk))]
      rfl
    rw [skip_eq_past (by decide), past_past] at last
    refine ⟨blanks ++ ['>'], by rw [parts]; simp, ?_⟩
    simp only [List.append_nil]
    exact reaches.tail (behind.moves last)
  | case4 input c start notClosed notOpened trimmed stop scanned =>
    obtain ⟨blanks, -, reaches, behind, stepped⟩ := isAt.exists_stepAttributes doing trimmed
    rw [stepAttributes_cons trimmed notOpened notClosed] at stepped
    have follows := (behind.turn (.attribute opening _ .name)).follows_scanAttribute rfl
      behind.position_eq
    rw [scanned] at follows
    exact Ends.of_reaches (reaches.tail (behind.moves stepped)) follows
  | case5 input c start notClosed notOpened trimmed entry left scanned inductionHypothesis =>
    obtain ⟨blanks, parts, reaches, behind, stepped⟩ := isAt.exists_stepAttributes doing trimmed
    rw [stepAttributes_cons trimmed notOpened notClosed] at stepped
    have follows := (behind.turn (.attribute opening _ .name)).follows_scanAttribute rfl
      behind.position_eq
    rw [scanned] at follows
    obtain ⟨read, readParts, more⟩ := follows
    have reachesNext := (reaches.tail (behind.moves stepped)).trans more
    rw [readParts] at behind parts
    let longer : OpeningTag := { opening with attributes := opening.attributes ++ [entry] }
    have others := inductionHypothesis (behind.past.turn (.attributes longer)) rfl
    have mapped : ((Piece.scanAttributes left).map fun found =>
          (entry :: found.1, found.2.1, found.2.2)).map
          (fun found => ((found.1, found.2.1), found.2.2)) =
        ((Piece.scanAttributes left).map fun found => ((found.1, found.2.1), found.2.2)).map
          fun found => ((entry :: found.1.1, found.1.2), found.2) := by
      cases Piece.scanAttributes left <;> rfl
    rw [mapped]
    refine .of_reaches (blanks ++ read) reachesNext (by rw [parts, List.append_assoc]) ?_
    refine Follows.map (f := fun found : List Attribute × Bool => (entry :: found.1, found.2)) ?_
    simp only [longer, List.append_assoc, List.singleton_append] at others
    simp only [← past_past]
    exact others

/-- A walk behind the bracket of an opening tag reads it as it is scanned. -/
theorem IsAt.follows_scanOpening {start wordStart : Nat} (isAt : walk.IsAt markup before input)
    (doing : walk.activity = .openingTag start wordStart)
    (starts : wordStart = Text.byteSize before)
    {arrived : Piece → List Char → Walk}
    (arrives : ∀ tag entries closed read, arrived (.opening tag entries closed) read =
      (walk.past read).finish ⟨start, tag, entries⟩ closed) :
    walk.Follows markup input (Piece.scanOpening input) arrived := by
  have follows := isAt.follows_scanTag starts fun front unread => by
    rw [stepOn, activity_past, doing]
  refine follows.bind ?_
  rintro tag read rest rfl
  have behind := isAt.past.turn (.attributes ⟨start, String.ofList tag, []⟩)
  have mapped : (Piece.scanAttributes rest >>= fun found =>
        pure (Piece.opening (String.ofList tag) found.1 found.2.1, found.2.2)) =
      ((Piece.scanAttributes rest).map fun found => ((found.1, found.2.1), found.2.2)).map
        fun found => (.opening (String.ofList tag) found.1.1 found.1.2, found.2) := by
    cases Piece.scanAttributes rest <;> rfl
  change Follows _ markup rest (Piece.scanAttributes rest >>= fun found =>
    pure (Piece.opening (String.ofList tag) found.1 found.2.1, found.2.2)) _
  rw [mapped]
  refine Follows.map (f := fun found : List Attribute × Bool =>
    Piece.opening (String.ofList tag) found.1 found.2) ?_
  simp only [arrives, ← past_past]
  exact behind.follows_scanAttributes rfl

/-- A walk behind the tag of a closing tag goes on to its end. -/
theorem IsAt.follows_closingEnd {place : Location} {tag : String}
    (isAt : walk.IsAt markup before input) (doing : walk.activity = .closingEnd place tag)
    {arrived : Piece → List Char → Walk}
    (arrives : ∀ read, arrived (.closing tag) read = (walk.past read).turn (.closed place tag)) :
    walk.Follows markup input
      (Piece.expect ">" (Text.trimStart input) >>= fun rest => pure (Piece.closing tag, rest))
      arrived := by
  have stepped (front unread : List Char) : (walk.past front).stepOn markup unread =
      (walk.past front).stepClosingEnd place tag unread := by
    rw [stepOn, activity_past, doing]
  obtain ⟨blanks, parts, reaches, behind⟩ :=
    isAt.exists_blanks fun front unread => ⟨_, stepped front unread⟩
  have last := stepped blanks (Text.trimStart input)
  rw [stepClosingEnd, loop_of_ends (Text.ends_trimStart input)] at last
  cases expected : Piece.expect ">" (Text.trimStart input) with
  | error stop =>
    have unread_eq : stop.unread = Text.trimStart input := Piece.unread_of_expect expected
    rw [← unread_eq] at behind
    rw [expected] at last
    exact Ends.of_reaches reaches (behind.ends_fail (unread_eq ▸ last))
  | ok rest =>
    simp only [expected] at last
    rw [skip_eq_past (by decide), past_past] at last
    refine ⟨blanks ++ ['>'], ?_, ?_⟩
    · rw [parts, Piece.expect_eq_ok_iff.1 expected, List.append_assoc]
      rfl
    · rw [arrives]
      exact reaches.tail (behind.moves last)

/-- A walk behind the slash of a closing tag reads it as it is scanned. -/
theorem IsAt.follows_scanClosing {place : Location} {wordStart : Nat}
    (isAt : walk.IsAt markup before input) (doing : walk.activity = .closingTag place wordStart)
    (starts : wordStart = Text.byteSize before) {arrived : Piece → List Char → Walk}
    (arrives : ∀ tag read, arrived (.closing tag) read =
      (walk.past read).turn (.closed place tag)) :
    walk.Follows markup input (Piece.scanClosing input) arrived := by
  have follows := isAt.follows_scanTag starts fun front unread => by
    rw [stepOn, activity_past, doing]
  refine follows.bind ?_
  rintro tag read rest rfl
  have behind := isAt.past.turn (.closingEnd place (String.ofList tag))
  exact behind.follows_closingEnd rfl fun others => by
    rw [arrives, ← past_past]
    rfl

/-- A walk in a comment goes past what holds no end of it. -/
theorem IsAt.loops_comment {start : Nat} (isAt : walk.IsAt markup before (read ++ rest))
    (doing : walk.activity = .comment start)
    (absent : ∀ front c back, read = front ++ c :: back →
      ¬Piece.commentEnd.toList <+: c :: (back ++ rest)) : walk.Loops markup read := by
  refine isAt.loops ?_
  intro front c back same
  have noEnd : Text.after? Piece.commentEnd.toList (c :: (back ++ rest)) = none := by
    apply Option.eq_none_iff_forall_ne_some.2
    intro others found
    exact absent front c back same ⟨others, (Text.after?_eq_some_iff.1 found).symm⟩
  rw [stepOn, activity_past, doing]
  simp only [stepComment, noEnd]

/-- A walk goes on to the first end of a comment and leaves the comment there, or else it goes on to
the end of the text and stops. -/
def LeavesComment (walk : Walk) (markup : String) (unread : List Char) : Prop :=
  (∃ body rest, unread = body ++ Piece.commentEnd.toList ++ rest ∧
    Text.IsBeforeFirst Piece.commentEnd.toList body ∧ walk.Loops markup body ∧
    Moves markup (walk.past body) ((walk.past (body ++ Piece.commentEnd.toList)).turn .nodes)) ∨
  ¬Piece.commentEnd.toList <:+: unread ∧ walk.Loops markup unread ∧
    (walk.past unread).step markup = some (.ended (.error
      (Node.errorAt markup.toList ⟨.ending (some Piece.commentEnd), []⟩)))

theorem IsAt.leavesComment {start : Nat} (isAt : walk.IsAt markup before unread)
    (doing : walk.activity = .comment start) : walk.LeavesComment markup unread := by
  have nonempty : Piece.commentEnd.toList ≠ [] := by decide
  cases cut : Text.cutAt? Piece.commentEnd.toList unread with
  | some found =>
    obtain ⟨body, rest⟩ := found
    obtain ⟨rfl, first⟩ := (Text.cutAt?_eq_some_iff nonempty).1 cut
    rw [List.append_assoc] at isAt
    refine .inl ⟨body, rest, rfl, first, isAt.loops_comment doing ?_, ?_⟩
    · -- An end further in front would make the body shorter.
      rintro front c back rfl ⟨others, atFront⟩
      have same : front ++ c :: back ++ Piece.commentEnd.toList ++ rest =
          front ++ Piece.commentEnd.toList ++ others := by
        simp only [List.append_assoc, atFront, List.cons_append]
      have shorter := (first.isPrefix same).length_le
      rw [List.length_append, List.length_cons] at shorter
      omega
    · have atEnd : Text.after? Piece.commentEnd.toList (Piece.commentEnd.toList ++ rest) =
          some rest := Text.after?_eq_some_iff.2 rfl
      have skipped : (walk.past body).skip Piece.commentEnd.toList =
        (walk.past body).past Piece.commentEnd.toList := skip_eq_past (by decide) _
      refine isAt.past.moves ?_
      rw [stepOn, activity_past, doing, ← past_past, ← skipped]
      simp only [stepComment, atEnd]
  | none =>
    have absent := (Text.cutAt?_eq_none_iff nonempty).1 cut
    have behind : (walk.past unread).IsAt markup (before ++ unread) [] :=
      IsAt.past (by rwa [List.append_nil])
    refine .inr ⟨absent, IsAt.loops_comment (by rwa [List.append_nil]) doing ?_, ?_⟩
    · rintro front c back rfl isPrefix
      rw [List.append_nil] at isPrefix
      exact absent (isPrefix.isInfix.trans (List.suffix_append front (c :: back)).isInfix)
    · rw [behind.step_eq, stepOn, activity_past, doing]
      exact behind.fail_eq _

/-- A walk in a comment reads it as it is scanned. -/
theorem IsAt.follows_scanComment {start : Nat} (isAt : walk.IsAt markup before input)
    (doing : walk.activity = .comment start) {arrived : Piece → List Char → Walk}
    (arrives : ∀ read, arrived .comment read = (walk.past read).turn .nodes) :
    walk.Follows markup input (Piece.scanComment input) arrived := by
  have nonempty : Piece.commentEnd.toList ≠ [] := by decide
  rw [Piece.scanComment]
  obtain ⟨body, rest, parts, first, loops, moves⟩ | ⟨absent, loops, ended⟩ :=
    isAt.leavesComment doing
  · rw [(Text.cutAt?_eq_some_iff nonempty).2 ⟨parts, first⟩]
    exact ⟨_, parts, arrives _ ▸ loops.reaches.tail moves⟩
  · rw [(Text.cutAt?_eq_none_iff nonempty).2 absent]
    exact Ends.of_reaches loops.reaches (.last ended)

/-- A walk in a run of text goes on to markup, or to the end of the text. -/
theorem IsAt.reaches_text {start : Nat} {word run : List Char}
    (isAt : walk.IsAt markup (before ++ word) (run ++ rest))
    (doing : walk.activity = .text start) (starts : start = Text.byteSize before)
    (endsText : Piece.EndsText rest) (noMarkup : Grammar.NoMarkup run) :
    Reaches markup walk
      ((walk.past run).add (.text (String.ofList (Entity.decode (word ++ run))))) := by
  have loops : walk.Loops markup run := by
    refine isAt.loops ?_
    rintro front c back rfl
    have noneBehind : Grammar.NoMarkup (c :: back) := fun first d after same =>
      noMarkup (front ++ first) d after (by rw [same, List.append_assoc])
    have closed := ((Piece.noMarkup_cons_iff endsText).1 noneBehind).1
    rw [stepOn, activity_past, doing]
    exact if_pos (by rw [closed]; rfl)
  have behind := isAt.past
  rw [List.append_assoc] at behind
  have left (afterwards : Option Step) :
      (walk.past run).loop (fun _ => !opensMarkup rest) rest afterwards = afterwards := by
    refine loop_of_ends ?_ afterwards
    intro c isFirst
    rcases endsText with rfl | opens
    · cases isFirst
    · rw [opens]
      rfl
  refine loops.reaches.tail (behind.moves ?_)
  rw [stepOn, activity_past, doing]
  simp only [stepText, left, starts, behind.slice_eq]
  rfl

/-- A walk that has read a piece. Behind a closing tag it is not yet out of the element. -/
def behind (walk : Walk) (piece : Piece) (read : List Char) : Walk :=
  match piece with
  | .text content => (walk.past read).add (.text content)
  | .comment => (walk.past read).turn .nodes
  | .opening tag entries closed =>
    (walk.past read).finish ⟨walk.cursor.position, tag, entries⟩ closed
  | .closing tag => (walk.past read).turn (.closed walk.cursor.location tag)

/-- A walk between two nodes reads a piece as it is scanned. -/
theorem IsAt.follows_scan (isAt : walk.IsAt markup before unread) (doing : walk.activity = .nodes)
    (nonempty : unread ≠ []) : walk.Follows markup unread (Piece.scan unread) walk.behind := by
  obtain ⟨c, rest, rfl⟩ := List.exists_cons_of_ne_nil nonempty
  have stepped : walk.stepOn markup (c :: rest) = walk.stepNodes (c :: rest) := by
    rw [stepOn, doing]
  rw [Piece.scan]
  cases commentFound : Text.after? Piece.commentStart (c :: rest) with
  | some body =>
    have parts := Text.after?_eq_some_iff.1 commentFound
    simp only [stepNodes, commentFound] at stepped
    rw [skip_eq_past (by decide)] at stepped
    refine .of_reaches _ (.single (isAt.moves stepped)) parts ?_
    rw [parts] at isAt
    refine (isAt.past.turn (.comment _)).follows_scanComment rfl fun read => ?_
    rw [behind, ← past_past]
    rfl
  | none =>
    cases closingFound : Text.after? Piece.closingStart (c :: rest) with
    | some body =>
      have parts := Text.after?_eq_some_iff.1 closingFound
      have column : walk.cursor.column? = some walk.cursor.location.column := by
        rw [isAt.cursor_eq, Cursor.column?_advance]
      simp only [stepNodes, commentFound, closingFound, column] at stepped
      rw [skip_eq_past (by decide)] at stepped
      refine .of_reaches _ (.single (isAt.moves stepped)) parts ?_
      rw [parts] at isAt
      refine (isAt.past.turn (.closingTag _ _)).follows_scanClosing rfl isAt.past.position_eq
        fun tag read => ?_
      rw [behind, ← past_past]
      rfl
    | none =>
      by_cases opens : opensMarkup (c :: rest) = true
      · obtain ⟨_, _, begins, -⟩ := Piece.opensMarkup_eq_true_iff.1 opens
        obtain ⟨rfl, -⟩ := List.cons.inj begins
        simp only [stepNodes, commentFound, closingFound, opens, if_true] at stepped
        rw [skip_eq_past (by decide)] at stepped
        simp only [opens, if_true, List.tail_cons]
        refine .of_reaches ['<'] (.single (isAt.moves stepped)) rfl ?_
        have inside : (walk.past ['<']).IsAt markup (before ++ ['<']) rest := isAt.past
        refine (inside.turn (.openingTag _ _)).follows_scanOpening rfl inside.position_eq
          fun tag entries closed read => ?_
        rw [behind, ← past_past]
        rfl
      · have closed := Bool.eq_false_iff.2 opens
        simp only [stepNodes, commentFound, closingFound, closed] at stepped
        generalize split : Piece.splitText rest = found
        obtain ⟨run, next⟩ := found
        obtain ⟨rfl, endsText, noMarkup⟩ := Piece.splitText_eq_iff.1 split
        have inside : (walk.past [c]).IsAt markup (before ++ [c]) (run ++ next) := isAt.past
        have reaches := (inside.turn (.text walk.cursor.position)).reaches_text rfl
          isAt.position_eq endsText noMarkup
        simp only [closed, Piece.splitText, split, Bool.false_eq_true, if_false]
        exact ⟨c :: run, rfl, .head (isAt.moves stepped) reaches⟩

end Pieces

section Nodes

theorem cursor_behind (piece : Piece) (read : List Char) :
    (walk.behind piece read).cursor = (walk.past read).cursor := by
  cases piece with
  | opening tag entries closed =>
    rw [behind, finish]
    split <;> rfl
  | text content => rfl
  | comment => rfl
  | closing tag => rfl

/-- A walk between two nodes gets behind a piece. -/
theorem IsAt.exists_behind {piece : Piece} (isAt : walk.IsAt markup before input)
    (doing : walk.activity = .nodes) (nonempty : input ≠ [])
    (scanned : Piece.scan input = .ok (piece, rest)) :
    ∃ read, Reaches markup walk (walk.behind piece read) ∧
      (walk.behind piece read).IsAt markup (before ++ read) rest := by
  have follows := isAt.follows_scan doing nonempty
  rw [scanned] at follows
  obtain ⟨read, rfl, reaches⟩ := follows
  exact ⟨read, reaches, isAt.past.parts, (cursor_behind piece read).trans isAt.past.cursor_eq⟩

/-- A closing tag that closes nothing is an error at its beginning. -/
theorem IsAt.errorAt_eq (isAt : walk.IsAt markup before input) (fault : MarkupFault) :
    Node.errorAt markup.toList ⟨fault, input⟩ =
      ⟨walk.cursor.location.line, walk.cursor.location.column, fault⟩ := by
  rw [isAt.parts, Node.errorAt_append, isAt.cursor_eq]
  rfl

/-- Behind a closing tag, a walk leaves the innermost element if the tag is the one of it. -/
theorem stepOn_behind_closing (tag : String) (read unread : List Char) :
    (walk.behind (.closing tag) read).stepOn markup unread =
      match walk.enclosing with
      | [] => some (.ended (.error
          ⟨walk.cursor.location.line, walk.cursor.location.column, .unopenedTag tag⟩))
      | frame :: outer =>
        if frame.tag = tag then some (.next ((walk.past read).leave frame outer))
        else some (.ended (.error ⟨walk.cursor.location.line, walk.cursor.location.column,
          .mismatchedTag frame.tag tag⟩)) := by
  have stepped : (walk.behind (.closing tag) read).stepOn markup unread =
      (walk.behind (.closing tag) read).stepClosed walk.cursor.location tag := rfl
  have enclosing_eq : (walk.behind (.closing tag) read).enclosing = walk.enclosing := rfl
  rw [stepped, stepClosed.eq_def, enclosing_eq]
  rfl

/-- A walk between two nodes ends with what is read of the rest. -/
theorem IsAt.ends_readAll {enclosing : List OpenElement} {siblings : List Node}
    (isAt : walk.IsAt markup before input) (doing : walk.activity = .nodes)
    (siblings_eq : walk.siblings = siblings)
    (enclosing_eq : walk.enclosing.map Frame.toOpenElement = enclosing) :
    Ends markup walk
      ((Node.readAll enclosing siblings input).mapError (Node.errorAt markup.toList)) := by
  -- The walk differs from case to case, but its siblings and elements are always the reader's.
  fun_induction Node.readAll enclosing siblings input generalizing walk before with
  | case1 siblings =>
    have noFrame := List.map_eq_nil_iff.1 enclosing_eq
    refine isAt.ends ?_
    rw [stepOn, doing]
    simp only [stepNodes, noFrame, siblings_eq]
    rfl
  | case2 siblings parent outer =>
    obtain ⟨frame, frames, framed, rfl, -⟩ := List.map_eq_cons_iff.1 enclosing_eq
    refine isAt.ends_fail ?_
    rw [stepOn, doing]
    simp only [stepNodes, framed]
  | case3 enclosing siblings input nonempty stop scanned =>
    have follows := isAt.follows_scan doing nonempty
    rw [scanned] at follows
    exact follows
  | case4 enclosing siblings input nonempty content rest scanned inductionHypothesis =>
    obtain ⟨read, reaches, nextAt⟩ := isAt.exists_behind doing nonempty scanned
    exact .of_reaches reaches
      (inductionHypothesis nextAt rfl (congrArg (_ :: ·) siblings_eq) enclosing_eq)
  | case5 enclosing siblings input nonempty rest scanned inductionHypothesis =>
    obtain ⟨read, reaches, nextAt⟩ := isAt.exists_behind doing nonempty scanned
    exact .of_reaches reaches (inductionHypothesis nextAt rfl siblings_eq enclosing_eq)
  | case6 enclosing siblings input nonempty tag attributes closed rest scanned childless
      inductionHypothesis =>
    obtain ⟨read, reaches, nextAt⟩ := isAt.exists_behind doing nonempty scanned
    have added : walk.behind (.opening tag attributes closed) read =
        (walk.past read).add (.element tag attributes []) := if_pos childless
    rw [added] at reaches nextAt
    exact .of_reaches reaches
      (inductionHypothesis nextAt rfl (congrArg (_ :: ·) siblings_eq) enclosing_eq)
  | case7 enclosing siblings input nonempty tag attributes closed rest scanned notChildless
      inductionHypothesis =>
    obtain ⟨read, reaches, nextAt⟩ := isAt.exists_behind doing nonempty scanned
    have entered : walk.behind (.opening tag attributes closed) read =
        (walk.past read).enter ⟨walk.cursor.position, tag, attributes⟩ := if_neg notChildless
    rw [entered] at reaches nextAt
    refine .of_reaches reaches (inductionHypothesis nextAt rfl rfl ?_)
    rw [← siblings_eq, ← enclosing_eq]
    rfl
  | case8 siblings input nonempty tag rest scanned =>
    obtain ⟨read, reaches, nextAt⟩ := isAt.exists_behind doing nonempty scanned
    have noFrame := List.map_eq_nil_iff.1 enclosing_eq
    refine .of_reaches reaches (nextAt.ends ?_)
    simp only [stepOn_behind_closing, noFrame, Except.mapError, isAt.errorAt_eq]
  | case9 siblings input nonempty rest parent outer scanned inductionHypothesis =>
    obtain ⟨read, reaches, nextAt⟩ := isAt.exists_behind doing nonempty scanned
    obtain ⟨frame, frames, framed, rfl, rfl⟩ := List.map_eq_cons_iff.1 enclosing_eq
    have reversed : siblings.attach.reverse.unattach = siblings.reverse := by simp
    rw [reversed] at inductionHypothesis
    have left : (walk.behind (.closing frame.tag) read).stepOn markup rest =
        some (.next ((walk.past read).leave frame frames)) := by
      simp only [stepOn_behind_closing, framed, if_true]
    have nodesAt : ((walk.past read).leave frame frames).IsAt markup (before ++ read) rest :=
      ⟨nextAt.parts, nextAt.cursor_eq⟩
    refine .of_reaches (reaches.tail (nextAt.moves left)) (inductionHypothesis nodesAt rfl ?_ rfl)
    rw [← siblings_eq]
    rfl
  | case10 siblings input nonempty tag rest scanned parent outer different =>
    obtain ⟨read, reaches, nextAt⟩ := isAt.exists_behind doing nonempty scanned
    obtain ⟨frame, frames, framed, rfl, -⟩ := List.map_eq_cons_iff.1 enclosing_eq
    refine .of_reaches reaches (nextAt.ends ?_)
    simp only [stepOn_behind_closing, framed, if_neg different, Except.mapError, isAt.errorAt_eq]

/-- A walk through a text ends with the result of reading the text. -/
theorem ends_parse (markup : String) : Ends markup .begin (Node.parse markup) :=
  (IsAt.begin markup).ends_readAll rfl rfl rfl

end Nodes

end Walk

end Templating
