import Mathlib.Data.List.Chain
import Templating.Proofs.Outcome
import Templating.Proofs.Path
import Templating.Proofs.Renderer.Scope
import Templating.Proofs.Text.Run
import Templating.Renderer.Compile

/-!
# Compiled expressions

What the values of directives compile to. A path has the segments that it is written as;
the literals of a text are not empty, and none stands next to another one; a condition
compares with a path, a number, or a text that can be quoted. Each of these is stated for
one kind of expression, and holds of everything that compilation makes of that kind.
-/

namespace Templating

namespace Path

/-- A path that a loop goes over: spelled, not empty, and without blanks at its ends. -/
structure IsLoop (path : Path) : Prop where
  isSpelled : path.IsSpelled
  nonempty : path.raw ≠ ""
  trimmed : Text.trim path.raw.toList = path.raw.toList

/-- The path of a loop directive is one that a loop goes over. -/
theorem isLoop_ofLoop (value : String) : (ofLoop value).IsLoop := by
  rw [ofLoop]
  split
  · exact ⟨isSpelled_ofText _, by decide, by decide⟩
  · next filled =>
    refine ⟨isSpelled_ofText _, ?_, ?_⟩
    · change String.ofList (Text.trim value.toList) ≠ ""
      simpa using filled
    · change Text.trim (String.ofList (Text.trim value.toList)).toList = _
      rw [String.toList_ofList, Text.trim_trim]
      exact String.toList_ofList.symm

end Path

/-- Whether a token is literal text. -/
def Token.isLiteral : Token → Bool
  | .literal _ => true
  | .path _ => false

namespace Interpolation

/-- Literals are not empty, and none stands next to another one. -/
structure LiteralsApart (tokens : List Token) : Prop where
  noneEmpty : ∀ token ∈ tokens, token ≠ .literal ""
  noneAdjacent : tokens.IsChain fun first second => ¬(first.isLiteral ∧ second.isLiteral)

/-- The paths of a text are spelled. -/
def PathsSpelled (interpolation : Interpolation) : Prop :=
  ∀ path ∈ interpolation.paths, path.IsSpelled

/-- A text as compilation makes it. -/
structure IsWellFormed (interpolation : Interpolation) : Prop where
  pathsSpelled : interpolation.PathsSpelled
  literalsApart : LiteralsApart interpolation.tokens

section Literals

variable {content : List Char} {tokens : List Token}

theorem literalsApart_nil : LiteralsApart [] :=
  ⟨List.forall_mem_nil _, .nil⟩

/-- A placeholder in front keeps literals apart. -/
theorem LiteralsApart.cons_path (apart : LiteralsApart tokens) (path : Path) :
    LiteralsApart (.path path :: tokens) := by
  refine ⟨List.forall_mem_cons.2 ⟨nofun, apart.noneEmpty⟩,
    List.isChain_cons.2 ⟨?_, apart.noneAdjacent⟩⟩
  rintro next - ⟨isLiteral, -⟩
  cases isLiteral

/-- A text in front is joined to a literal, so that literals stay apart. -/
theorem LiteralsApart.prependLiteral (apart : LiteralsApart tokens) :
    LiteralsApart (prependLiteral content tokens) := by
  obtain ⟨noneEmpty, noneAdjacent⟩ := apart
  rw [Interpolation.prependLiteral.eq_def]
  split
  · exact ⟨noneEmpty, noneAdjacent⟩
  · next filled =>
    split
    · next following rest =>
      have nonempty : Token.literal (String.ofList (content ++ following.toList)) ≠ .literal "" := by
        simp [filled]
      obtain ⟨behind, restApart⟩ := List.isChain_cons.1 noneAdjacent
      exact ⟨List.forall_mem_cons.2 ⟨nonempty, (List.forall_mem_cons.1 noneEmpty).2⟩,
        List.isChain_cons.2 ⟨behind, restApart⟩⟩
    · next notLiteral =>
      have nonempty : Token.literal (String.ofList content) ≠ .literal "" := by
        simp [filled]
      refine ⟨List.forall_mem_cons.2 ⟨nonempty, noneEmpty⟩, List.isChain_cons.2 ⟨?_, noneAdjacent⟩⟩
      rintro token atFront ⟨-, isLiteral⟩
      cases token with
      | path path => cases isLiteral
      | literal following =>
        obtain ⟨rest, rfl⟩ := List.head?_eq_some_iff.1 atFront
        exact notLiteral following rest rfl

/-- The literals of a text stand apart. -/
theorem literalsApart_tokensOf (text : List Char) : LiteralsApart (tokensOf text) := by
  fun_induction tokensOf text with
  | case1 text noOpening => exact literalsApart_nil.prependLiteral
  | case2 text before afterOpening cut noClosing => exact literalsApart_nil.prependLiteral
  | case3 text before afterOpening cut inside rest cutClosing key blank inductionHypothesis =>
    exact inductionHypothesis.prependLiteral
  | case4 text before afterOpening cut inside rest cutClosing key filled inductionHypothesis =>
    exact (inductionHypothesis.cons_path _).prependLiteral

end Literals

section Paths

variable {path : Path}

/-- Literal text in front adds no path. -/
theorem path_mem_prependLiteral_iff {content : List Char} {tokens : List Token} :
    .path path ∈ prependLiteral content tokens ↔ .path path ∈ tokens := by
  rw [prependLiteral.eq_def]
  split
  · exact Iff.rfl
  · split
    · simp
    · simp

/-- The placeholders of a text are spelled. -/
theorem isSpelled_of_mem_tokensOf {text : List Char} (member : .path path ∈ tokensOf text) :
    path.IsSpelled := by
  fun_induction tokensOf text with
  | case1 text noOpening =>
    rw [path_mem_prependLiteral_iff] at member
    cases member
  | case2 text before afterOpening cut noClosing =>
    rw [path_mem_prependLiteral_iff] at member
    cases member
  | case3 text before afterOpening cut inside rest cutClosing key blank inductionHypothesis =>
    rw [path_mem_prependLiteral_iff] at member
    exact inductionHypothesis member
  | case4 text before afterOpening cut inside rest cutClosing key filled inductionHypothesis =>
    rw [path_mem_prependLiteral_iff] at member
    rcases List.mem_cons.1 member with here | later
    · cases here
      exact Path.isSpelled_ofText _
    · exact inductionHypothesis later

end Paths

/-- A compiled text is well-formed. -/
theorem isWellFormed_compile (template : String) : (compile template).IsWellFormed :=
  ⟨fun _ member => isSpelled_of_mem_tokensOf (mem_paths_iff.1 member), literalsApart_tokensOf _⟩

/-- The text of a directive is well-formed. -/
theorem isWellFormed_ofDirective (interpolated : Bool) (value : String) :
    (ofDirective interpolated value).IsWellFormed := by
  rw [ofDirective]
  split
  · exact isWellFormed_compile value
  · rw [ofExpression]
    split
    · exact isWellFormed_compile value
    · refine ⟨fun path member => ?_, literalsApart_nil.cons_path _⟩
      rw [List.mem_singleton.1 member]
      exact Path.isSpelled_ofText _

end Interpolation

namespace Operand

/-- An operand as compilation makes it: a number, a text that can be quoted, or a spelled
path. -/
def IsWellFormed : Operand → Prop
  | .literal (.number _) => True
  | .literal (.text content) => '\'' ∉ content.toList
  | .literal _ => False
  | .path target => target.IsSpelled

/-- A compiled operand is well-formed. -/
theorem isWellFormed_of_compile {expression : String} {text : List Char} {operand : Operand}
    (compiled : compile expression text = .ok operand) : operand.IsWellFormed := by
  rw [compile.eq_def] at compiled
  split at compiled
  · split at compiled
    · cases compiled
    · next content trailing cut =>
      split at compiled
      · cases compiled
        -- The text is cut at its first quote, which is therefore not part of the content.
        obtain ⟨-, noQuote⟩ := Text.cutAt?_singleton_eq_some_iff.1 cut
        rw [IsWellFormed, String.toList_ofList]
        exact noQuote
      · cases compiled
  · split at compiled
    · cases compiled
    · split at compiled
      · cases compiled
        trivial
      · cases compiled
        exact Path.isSpelled_ofText _

end Operand

namespace Condition

variable {expression : String} {condition : Condition}

/-- A condition as compilation makes it. -/
structure IsWellFormed (condition : Condition) : Prop where
  left : condition.left.IsSpelled
  right : condition.right.IsWellFormed

/-- A compiled condition is well-formed. -/
theorem isWellFormed_of_compile (compiled : compile expression = .ok condition) :
    condition.IsWellFormed := by
  simp only [compile] at compiled
  split at compiled
  · cases compiled
  · split at compiled
    · cases compiled
    · split at compiled
      · cases compiled
      · split at compiled
        · cases compiled
        · obtain ⟨operand, operandCompiled, rfl⟩ := map_eq_ok_iff.1 compiled
          exact ⟨Path.isSpelled_ofText _, Operand.isWellFormed_of_compile operandCompiled⟩

/-- Several compiled conditions are well-formed. -/
theorem isWellFormed_of_compileAll {expressions : List String} {conditions : List Condition}
    (compiled : compileAll expressions = .ok conditions) :
    ∀ condition ∈ conditions, condition.IsWellFormed := by
  induction expressions generalizing conditions with
  | nil =>
    cases compiled
    exact List.forall_mem_nil _
  | cons expression expressions inductionHypothesis =>
    obtain ⟨first, firstCompiled, more⟩ := bind_eq_ok_iff.1 compiled
    obtain ⟨others, othersCompiled, same⟩ := bind_eq_ok_iff.1 more
    cases same
    exact List.forall_mem_cons.2
      ⟨isWellFormed_of_compile firstCompiled, inductionHypothesis othersCompiled⟩

/-- The paths of a condition are spelled. -/
def PathsSpelled (condition : Condition) : Prop :=
  ∀ path ∈ condition.paths, path.IsSpelled

/-- The paths of a well-formed condition are spelled. -/
theorem IsWellFormed.pathsSpelled (isWellFormed : condition.IsWellFormed) :
    condition.PathsSpelled := by
  obtain ⟨left, operator, right⟩ := condition
  cases right with
  | literal value => exact List.forall_mem_singleton.2 isWellFormed.left
  | path right =>
    exact List.forall_mem_cons.2
      ⟨isWellFormed.left, List.forall_mem_singleton.2 isWellFormed.right⟩

end Condition

end Templating
