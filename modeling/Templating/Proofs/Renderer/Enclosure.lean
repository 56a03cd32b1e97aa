import Templating.Proofs.Renderer.Binding
import Templating.Proofs.Renderer.Placeholder

/-!
# Bare values

A directive's value without an opening mark is a path alone. It means the same as the value
between the marks of a placeholder, but not for every value: the first closing mark has to be the
one behind the value, and there has to be something in front of it. `Interpolation.IsEnclosable`
says which values these are, and `Interpolation.compile_enclosed_eq_alone_iff` that there are no
others. For such a value it does not matter whether a directive has it bare, between marks, or
between marks in the mode with placeholders: `Interpolation.bare_eq_enclosed` says so for
directives that bind attributes and for those that replace children.
-/

namespace Templating

namespace Interpolation

/-- A text between the marks of a placeholder. -/
def enclosed (text : String) : String :=
  String.ofList (opening ++ text.toList ++ closing)

/-- A placeholder alone, for the path that a text spells. -/
def alone (text : String) : Interpolation :=
  ⟨[.path (.ofText (String.ofList (Text.trim text.toList)))]⟩

/-- A text that a placeholder can hold as it is: not blank, and nowhere closed before its end.
With a brace at its end, it would be closed one character early. -/
structure IsEnclosable (text : String) : Prop where
  filled : ¬ Text.Blanks text.toList
  unclosed : ¬ closing <:+: text.toList
  noBrace : text.toList.getLast? ≠ some '\x7d'

section Enclosed

variable {text : String}

theorem toList_enclosed (text : String) :
    (enclosed text).toList = opening ++ (text.toList ++ closing) := by
  rw [enclosed, String.toList_ofList, List.append_assoc]

/-- The closing mark behind an enclosable text is the first one. -/
theorem IsEnclosable.isBeforeFirst (enclosable : IsEnclosable text) :
    Text.IsBeforeFirst closing text.toList :=
  Text.isBeforeFirst_pair_iff.2 ⟨enclosable.unclosed, enclosable.noBrace⟩

/-- Between marks, an enclosable text is a placeholder alone. -/
theorem IsEnclosable.compile_enclosed (enclosable : IsEnclosable text) :
    compile (enclosed text) = alone text := by
  have filled : Text.trim text.toList ≠ [] :=
    fun empty => enclosable.filled (Text.trim_eq_nil_iff.1 empty)
  have tokens := tokensOf_of_marks Text.IsBeforeFirst.nil enclosable.isBeforeFirst []
  have noTokens : tokensOf [] = [] := by
    rw [tokensOf]
    rfl
  rw [if_neg filled, noTokens] at tokens
  rw [compile, alone, toList_enclosed]
  simpa [prependLiteral] using tokens

/-- A text between marks that is a placeholder alone is enclosable. A text is one that its tokens
are written as, so there is nothing behind this placeholder. -/
theorem IsEnclosable.of_compile_enclosed (same : compile (enclosed text) = alone text) :
    IsEnclosable text := by
  have tokens : tokensOf (enclosed text).toList =
      [.path (.ofText (String.ofList (Text.trim text.toList)))] :=
    congrArg Interpolation.tokens same
  have isKey : (Path.ofText (String.ofList (Text.trim text.toList))).IsKey := by
    refine isKey_of_mem_tokensOf (?_ : _ ∈ tokensOf (enclosed text).toList)
    rw [tokens]
    exact List.mem_singleton_self _
  have closed : Text.IsBeforeFirst closing text.toList := by
    have written := isWritten_tokensOf (enclosed text).toList
    rw [tokens] at written
    generalize parts : (enclosed text).toList = whole at written
    cases written with
    | path path frontBlank backBlank first others =>
      cases others
      simp only [toList_enclosed, List.append_assoc, List.append_cancel_left_eq,
        List.append_nil] at parts
      simp only [← List.append_assoc, List.append_cancel_right_eq] at parts first
      rwa [parts]
  obtain ⟨unclosed, noBrace⟩ := Text.isBeforeFirst_pair_iff.1 closed
  refine ⟨fun blank => isKey.nonempty ?_, unclosed, noBrace⟩
  rw [Path.raw_ofText, Text.trim_eq_nil_iff.2 blank]

/-- The enclosable texts are those that mean one placeholder between marks. -/
theorem compile_enclosed_eq_alone_iff : compile (enclosed text) = alone text ↔ IsEnclosable text :=
  ⟨IsEnclosable.of_compile_enclosed, IsEnclosable.compile_enclosed⟩

/-- A value without an opening mark is a path alone. -/
theorem ofExpression_of_not_infix (bare : ¬ opening <:+: text.toList) :
    ofExpression text = alone text := by
  rw [ofExpression, (Text.cutAt?_eq_none_iff opening_ne_nil).2 bare]
  rfl

/-- A value between marks is a text with placeholders. -/
theorem ofExpression_enclosed (text : String) :
    ofExpression (enclosed text) = compile (enclosed text) := by
  have marked : Text.cutAt? opening (enclosed text).toList ≠ none := by
    intro none
    refine (Text.cutAt?_eq_none_iff opening_ne_nil).1 none ?_
    rw [toList_enclosed]
    exact List.infix_append_of_infix_left (List.infix_refl _)
  rw [ofExpression, if_pos (Option.isSome_iff_ne_none.2 marked)]

/-- In either mode, an enclosable value between marks is a placeholder alone. -/
theorem IsEnclosable.ofDirective_enclosed (enclosable : IsEnclosable text) (interpolated : Bool) :
    ofDirective interpolated (enclosed text) = alone text := by
  cases interpolated with
  | true => exact enclosable.compile_enclosed
  | false =>
    rw [ofDirective, if_neg Bool.false_ne_true, ofExpression_enclosed]
    exact enclosable.compile_enclosed

end Enclosed

end Interpolation

/-- The directive with its value read in the other mode, if it has modes. -/
def Directive.inMode (interpolated : Bool) : Directive → Directive
  | .loop => .loop
  | .condition => .condition
  | .text _ => .text interpolated
  | .binding target _ => .binding target interpolated

namespace Directives

variable {directives : Directives} {name word target : String} {entry : Attribute}
  {text : Interpolation}

/-- An attribute binds another one to a text: an element compiles with it as without it, and has
one more binding, between those of the attributes before it and behind it. -/
def PutsBinding (directives : Directives) (entry : Attribute) (binding : Binding) : Prop :=
  ∀ tag before after,
    Plan.compile directives tag (before ++ entry :: after) =
      (Plan.compile directives tag (before ++ after)).map fun plan =>
        { plan with bindings := directives.bindings before ++ binding :: directives.bindings after }

/-- An attribute puts a text in place of the children: an element compiles with it as without it,
and has that text unless an attribute behind it gives it another one. -/
def PutsText (directives : Directives) (entry : Attribute) (text : Interpolation) : Prop :=
  ∀ tag before after,
    Plan.compile directives tag (before ++ entry :: after) =
      (Plan.compile directives tag (before ++ after)).map fun plan =>
        { plan with text := some ((directives.texts after).getLast?.getD text) }

/-- The three ways to give a directive a path for its value: bare, between the marks of a
placeholder, and between these marks in the mode with placeholders. -/
def spellings (directives : Directives) (word value : String) : List Attribute :=
  [⟨directives.bindingName word false, value⟩,
    ⟨directives.bindingName word false, Interpolation.enclosed value⟩,
    ⟨directives.bindingName word true, Interpolation.enclosed value⟩]

theorem putsBinding_of_classify? {interpolated : Bool} {value : String}
    (bound : directives.classify? name = some (.binding target interpolated)) :
    directives.PutsBinding ⟨name, value⟩ ⟨target, .ofDirective interpolated value⟩ :=
  fun tag before after => binds_iff.2 bound tag before after value

theorem putsText_of_classify? {interpolated : Bool} {value : String}
    (isText : directives.classify? name = some (.text interpolated)) :
    directives.PutsText ⟨name, value⟩ (.ofDirective interpolated value) := by
  intro tag before after
  simp only [Plan.compile, plainAttributes, loops, texts, conditions, bindings,
    List.filter_append, List.filter_cons, List.filterMap_append, List.filterMap_cons, isText]
  cases Condition.compileAll _ with
  | error fault => rfl
  | ok conditions =>
    simp [bind, Except.bind, pure, Except.pure, Except.map, List.getLast?_append,
      List.getLast?_cons]

/-- A word is a loop if it is the name of loops. -/
theorem directiveOf_eq_loop_iff {word : List Char} :
    directives.directiveOf word = .loop ↔ word = directives.loop.toList := by
  simp only [directiveOf]
  split
  · next isLoop => exact iff_of_true rfl isLoop
  · next notLoop =>
    refine iff_of_false ?_ notLoop
    intro isLoop
    split at isLoop
    · cases isLoop
    · split at isLoop <;> split at isLoop <;> cases isLoop

/-- A word is a condition if it is the name of conditions, and not of loops as well. -/
theorem directiveOf_eq_condition_iff {word : List Char} :
    directives.directiveOf word = .condition ↔
      word ≠ directives.loop.toList ∧ word = directives.condition.toList := by
  simp only [directiveOf]
  split
  · next isLoop => exact iff_of_false Directive.noConfusion fun both => both.1 isLoop
  · next notLoop =>
    split
    · next isCondition => exact iff_of_true rfl ⟨notLoop, isCondition⟩
    · next notCondition =>
      refine iff_of_false ?_ fun both => notCondition both.2
      intro isCondition
      split at isCondition <;> split at isCondition <;> cases isCondition

/-- A colon and something behind it change no more than the mode of a directive, unless there is a
loop or a condition with the shorter name or with the longer one. -/
theorem exists_directiveOf_colon {word more : List Char}
    (notLoop : directives.directiveOf word ≠ .loop)
    (notCondition : directives.directiveOf word ≠ .condition)
    (stillNotLoop : directives.directiveOf (word ++ ':' :: more) ≠ .loop)
    (stillNotCondition : directives.directiveOf (word ++ ':' :: more) ≠ .condition) :
    ∃ interpolated, directives.directiveOf (word ++ ':' :: more) =
      (directives.directiveOf word).inMode interpolated := by
  rw [Ne, directiveOf_eq_loop_iff] at notLoop stillNotLoop
  rw [Ne, directiveOf_eq_condition_iff, not_and] at notCondition stillNotCondition
  simp only [directiveOf, if_neg notLoop, if_neg (notCondition notLoop), if_neg stillNotLoop,
    if_neg (stillNotCondition stillNotLoop)]
  -- The longer word has the same first colon, or its first one is the new one.
  cases cut : Text.cutAt? [':'] word with
  | none =>
    have noColon := Text.cutAt?_singleton_eq_none_iff.1 cut
    rw [Text.cutAt?_singleton_eq_some_iff.2 ⟨rfl, noColon⟩]
    refine ⟨decide (more = directives.suffix.toList), ?_⟩
    dsimp only
    split <;> rfl
  | some parts =>
    obtain ⟨before, suffix⟩ := parts
    obtain ⟨rfl, noColon⟩ := Text.cutAt?_singleton_eq_some_iff.1 cut
    have longer : before ++ ':' :: suffix ++ ':' :: more =
        before ++ ':' :: (suffix ++ ':' :: more) :=
      List.append_assoc before (':' :: suffix) (':' :: more)
    rw [Text.cutAt?_singleton_eq_some_iff.2 ⟨longer, noColon⟩]
    refine ⟨decide (suffix ++ ':' :: more = directives.suffix.toList), ?_⟩
    dsimp only
    split <;> rfl

/-- With the suffix behind it, a name is the directive of the longer word. -/
theorem classify?_suffixed (directives : Directives) (word : String) :
    directives.classify? (directives.bindingName word true) =
      some (directives.directiveOf (word.toList ++ ':' :: directives.suffix.toList)) :=
  classify?_eq_some_iff.2 ⟨_, by simp [bindingName], by simp, rfl⟩

/-- Where loops and conditions are called by names without a colon, no name with the suffix behind
it is one of theirs. -/
theorem classify?_suffixed_ne (loopNoColon : ':' ∉ directives.loop.toList)
    (conditionNoColon : ':' ∉ directives.condition.toList) (word : String) :
    directives.classify? (directives.bindingName word true) ≠ some .loop ∧
      directives.classify? (directives.bindingName word true) ≠ some .condition := by
  have colon : ':' ∈ word.toList ++ ':' :: directives.suffix.toList := by simp
  rw [classify?_suffixed]
  constructor
  · intro isLoop
    exact loopNoColon (directiveOf_eq_loop_iff.1 (Option.some.inj isLoop) ▸ colon)
  · intro isCondition
    have same := (directiveOf_eq_condition_iff.1 (Option.some.inj isCondition)).2
    exact conditionNoColon (same ▸ colon)

/-- With the suffix behind its name, a directive with modes is the same one in some mode, unless
the longer name is that of a loop or a condition. -/
theorem exists_classify?_suffix {directive : Directive}
    (classified : directives.classify? (directives.bindingName word false) = some directive)
    (notLoop : directive ≠ .loop) (notCondition : directive ≠ .condition)
    (stillNotLoop : directives.classify? (directives.bindingName word true) ≠ some .loop)
    (stillNotCondition :
      directives.classify? (directives.bindingName word true) ≠ some .condition) :
    ∃ interpolated, directives.classify? (directives.bindingName word true) =
      some (directive.inMode interpolated) := by
  obtain ⟨chars, parts, -, rfl⟩ := classify?_eq_some_iff.1 classified
  obtain rfl : word.toList = chars := by simpa [bindingName] using parts
  rw [classify?_suffixed] at stillNotLoop stillNotCondition ⊢
  obtain ⟨interpolated, same⟩ := exists_directiveOf_colon notLoop notCondition
    (fun isLoop => stillNotLoop (congrArg some isLoop))
    (fun isCondition => stillNotCondition (congrArg some isCondition))
  exact ⟨interpolated, congrArg some same⟩

/-- Each spelling of an enclosable value is read as the same placeholder, in the mode that it asks
for. -/
theorem exists_mode_of_mem_spellings {directive : Directive} {value : String}
    (enclosable : Interpolation.IsEnclosable value)
    (bare : ¬ Interpolation.opening <:+: value.toList)
    (classified : directives.classify? (directives.bindingName word false) = some directive)
    (plain : directive.inMode false = directive)
    (notLoop : directive ≠ .loop) (notCondition : directive ≠ .condition)
    (stillNotLoop : directives.classify? (directives.bindingName word true) ≠ some .loop)
    (stillNotCondition :
      directives.classify? (directives.bindingName word true) ≠ some .condition)
    (member : entry ∈ directives.spellings word value) :
    ∃ interpolated, directives.classify? entry.name = some (directive.inMode interpolated) ∧
      Interpolation.ofDirective interpolated entry.value = .alone value := by
  simp only [spellings, List.mem_cons, List.not_mem_nil, or_false] at member
  obtain rfl | rfl | rfl := member
  · exact ⟨false, classified.trans (congrArg some plain.symm),
      Interpolation.ofExpression_of_not_infix bare⟩
  · exact ⟨false, classified.trans (congrArg some plain.symm),
      enclosable.ofDirective_enclosed false⟩
  · obtain ⟨interpolated, suffixed⟩ :=
      exists_classify?_suffix classified notLoop notCondition stillNotLoop stillNotCondition
    exact ⟨interpolated, suffixed, enclosable.ofDirective_enclosed interpolated⟩

end Directives

/-- A value without an opening mark is the path that it spells, without the blanks around it. It
means the same as the value between the marks of a placeholder exactly if it is enclosable. Then,
with any spelling of directives, an attribute is bound to the same text by each way to write the
value, and children are replaced by the same text, unless the suffix makes the name of the directive
that of a loop or a condition. With the usual spelling it never does. -/
theorem Interpolation.bare_eq_enclosed {value : String} (bare : ¬ opening <:+: value.toList) :
    ofExpression value = alone value ∧
    (ofExpression value = compile (enclosed value) ↔ IsEnclosable value) ∧
    (IsEnclosable value → ∀ (directives : Directives) word,
      directives.classify? (directives.bindingName word true) ≠ some .loop →
      directives.classify? (directives.bindingName word true) ≠ some .condition →
      (∀ target,
        directives.classify? (directives.bindingName word false) = some (.binding target false) →
        ∀ entry ∈ directives.spellings word value,
          directives.PutsBinding entry ⟨target, alone value⟩) ∧
      (directives.classify? (directives.bindingName word false) = some (.text false) →
        ∀ entry ∈ directives.spellings word value, directives.PutsText entry (alone value))) ∧
    ∀ word,
      Directives.standard.classify? (Directives.standard.bindingName word true) ≠ some .loop ∧
      Directives.standard.classify? (Directives.standard.bindingName word true) ≠
        some .condition := by
  have isAlone : ofExpression value = alone value := ofExpression_of_not_infix bare
  refine ⟨isAlone, ?_, ?_, Directives.classify?_suffixed_ne (by decide) (by decide)⟩
  · rw [isAlone, eq_comm]
    exact compile_enclosed_eq_alone_iff
  · intro enclosable directives word notLoop notCondition
    constructor
    · intro target bound entry member
      obtain ⟨interpolated, classified, same⟩ := Directives.exists_mode_of_mem_spellings
        enclosable bare bound rfl nofun nofun notLoop notCondition member
      rw [← same]
      exact Directives.putsBinding_of_classify? classified
    · intro isText entry member
      obtain ⟨interpolated, classified, same⟩ := Directives.exists_mode_of_mem_spellings
        enclosable bare isText rfl nofun nofun notLoop notCondition member
      rw [← same]
      exact Directives.putsText_of_classify? classified

/-- A value with a brace inside, and blanks at its ends, gives a link the same address and the same
text in all three spellings. A brace at its end would make another text of it. -/
theorem Interpolation.bare_eq_enclosed_brace :
    let value := " \x7burl "
    let marked := "\x7b\x7b \x7burl \x7d\x7d"
    let url : Interpolation := ⟨[.path (.ofText "\x7burl")]⟩
    ofExpression "url\x7d" ≠ compile "\x7b\x7burl\x7d\x7d\x7d" ∧ compile marked = url ∧
    (∀ entry ∈ [⟨"jt-href", value⟩, ⟨"jt-href", marked⟩, ⟨"jt-href:var", marked⟩],
      Directives.standard.PutsBinding entry ⟨"href", url⟩) ∧
    ∀ entry ∈ [⟨"jt-text", value⟩, ⟨"jt-text", marked⟩, ⟨"jt-text:var", marked⟩],
      Directives.standard.PutsText entry url := by
  intro value marked url
  have bareBrace : ¬ opening <:+: "url\x7d".toList :=
    (Text.cutAt?_eq_none_iff opening_ne_nil).1 rfl
  have bare : ¬ opening <:+: " \x7burl ".toList := (Text.cutAt?_eq_none_iff opening_ne_nil).1 rfl
  have enclosable : IsEnclosable " \x7burl " := by
    refine ⟨fun blank => ?_, (Text.cutAt?_eq_none_iff closing_ne_nil).1 rfl, by decide⟩
    exact absurd (blank '\x7b' (by decide)) (by decide)
  have writtenBrace : enclosed "url\x7d" = "\x7b\x7burl\x7d\x7d\x7d" := rfl
  have written : enclosed " \x7burl " = "\x7b\x7b \x7burl \x7d\x7d" := rfl
  obtain ⟨isAlone, same, alike, suffixed⟩ := bare_eq_enclosed bare
  obtain ⟨hrefNotLoop, hrefNotCondition⟩ := suffixed "href"
  obtain ⟨textNotLoop, textNotCondition⟩ := suffixed "text"
  refine ⟨?_, ?_, ?_, ?_⟩
  · rw [← writtenBrace]
    intro sameBrace
    exact ((bare_eq_enclosed bareBrace).2.1.1 sameBrace).noBrace (by decide)
  · calc compile marked = compile (enclosed " \x7burl ") := congrArg compile written.symm
      _ = ofExpression " \x7burl " := (same.2 enclosable).symm
      _ = url := isAlone
  · exact (alike enclosable .standard "href" hrefNotLoop hrefNotCondition).1 "href" (by decide)
  · exact (alike enclosable .standard "text" textNotLoop textNotCondition).2 (by decide)

end Templating
