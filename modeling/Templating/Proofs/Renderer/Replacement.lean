import Templating.Proofs.Interpolation
import Templating.Proofs.Renderer.Output

/-!
# Texts in place of children

A text is its literals and its data joined, and a placeholder that stands alone is no exception
but for one thing: when its datum is absent, there is no text. So whether a text replaces
children can be read off the text, except that the datum false does not.
`Interpolation.evaluate_concatenates` says all of this.
-/

namespace Templating

namespace Interpolation

variable {interpolation : Interpolation} {context : Value} {missing : Missing}
  {tokens : List Token}

/-- The literals of some tokens and the texts of their data, joined. An absent datum adds
nothing, or the placeholder as it is written. -/
def concatenation (context : Value) (missing : Missing) : List Token → String
  | [] => ""
  | .literal content :: tokens => content ++ concatenation context missing tokens
  | .path path :: tokens =>
    (match path.resolve? context, missing with
      | some value, _ => value.plain
      | none, .empty => ""
      | none, .raw => "\x7b\x7b" ++ path.raw ++ "\x7d\x7d") ++
      concatenation context missing tokens

/-- The text is one placeholder and nothing else, and this is what its path leads to. -/
def IsLone (interpolation : Interpolation) (context : Value) (found : Option Value) : Prop :=
  ∃ path, interpolation.tokens = [.path path] ∧ path.resolve? context = found

/-- A placeholder leads to one thing only. -/
theorem IsLone.unique {found other : Option Value} (isLone : interpolation.IsLone context found)
    (otherIsLone : interpolation.IsLone context other) : found = other := by
  obtain ⟨path, alone, rfl⟩ := isLone
  obtain ⟨otherPath, otherAlone, rfl⟩ := otherIsLone
  rw [alone] at otherAlone
  cases otherAlone
  rfl

/-- A placeholder is written with its path between the marks. -/
theorem placeholder_eq (path : Path) : placeholder path = "\x7b\x7b" ++ path.raw ++ "\x7d\x7d" := by
  apply String.toList_inj.1
  rw [placeholder, String.toList_ofList, String.toList_append, String.toList_append]
  rfl

/-- What the tokens contribute is joined. -/
theorem join_contribution (tokens : List Token) :
    String.join (tokens.map (contribution context missing)) =
      concatenation context missing tokens := by
  induction tokens with
  | nil => rfl
  | cons token tokens inductionHypothesis =>
    rw [List.map_cons, String.join_cons, inductionHypothesis]
    cases token with
    | literal content => rfl
    | path path =>
      cases resolved : path.resolve? context with
      | some value => simp only [contribution, concatenation, resolved]
      | none =>
        cases missing with
        | empty => simp only [contribution, concatenation, resolved]
        | raw => simp only [contribution, concatenation, resolved, placeholder_eq]

/-- A text comes out as the datum of its only placeholder or its absence, and otherwise as the
concatenation of its tokens. -/
theorem evaluate_cases (interpolation : Interpolation) (context : Value) (missing : Missing) :
    interpolation.evaluate context missing = .absent ∧ interpolation.IsLone context none ∨
    (∃ value, interpolation.evaluate context missing = .value value ∧
      interpolation.IsLone context (some value)) ∨
    interpolation.evaluate context missing =
        .text (concatenation context missing interpolation.tokens) ∧
      ∀ found, ¬interpolation.IsLone context found := by
  obtain ⟨tokens⟩ := interpolation
  match tokens with
  | [] =>
    refine .inr (.inr ⟨rfl, ?_⟩)
    rintro found ⟨path, alone, -⟩
    cases alone
  | [.literal content] =>
    refine .inr (.inr ⟨?_, ?_⟩)
    · rw [concatenation, concatenation, String.append_empty]
      rfl
    · rintro found ⟨path, alone, -⟩
      cases alone
  | [.path path] =>
    cases resolved : path.resolve? context with
    | none => exact .inl ⟨by simp only [evaluate, resolved], path, rfl, resolved⟩
    | some value =>
      exact .inr (.inl ⟨value, by simp only [evaluate, resolved], path, rfl, resolved⟩)
  | first :: second :: tokens =>
    refine .inr (.inr ⟨?_, ?_⟩)
    · rw [evaluate_cons_cons, join_contribution]
    · rintro found ⟨path, alone, -⟩
      cases alone

/-- The datum of a placeholder that stands alone shows as it does among others. -/
theorem IsLone.concatenation_eq {value : Value}
    (isLone : interpolation.IsLone context (some value)) :
    concatenation context missing interpolation.tokens = value.plain := by
  obtain ⟨path, alone, resolved⟩ := isLone
  simp only [alone, concatenation, resolved, String.append_empty]

/-- There is no text exactly when a placeholder stands alone and its datum is absent. -/
theorem text?_evaluate_eq_none_iff :
    (interpolation.evaluate context missing).text? = none ↔ interpolation.IsLone context none := by
  obtain ⟨evaluated, isAbsent⟩ | ⟨value, evaluated, isLone⟩ | ⟨evaluated, notLone⟩ :=
    interpolation.evaluate_cases context missing
  · rw [evaluated]
    exact iff_of_true rfl isAbsent
  · rw [evaluated]
    refine iff_of_false nofun fun isAbsent => ?_
    cases isLone.unique isAbsent
  · rw [evaluated]
    exact iff_of_false nofun (notLone none)

/-- Any other text is the concatenation of its tokens. -/
theorem text?_evaluate (isThere : ¬interpolation.IsLone context none) :
    (interpolation.evaluate context missing).text? =
      some (concatenation context missing interpolation.tokens) := by
  obtain ⟨evaluated, isAbsent⟩ | ⟨value, evaluated, isLone⟩ | ⟨evaluated, notLone⟩ :=
    interpolation.evaluate_cases context missing
  · exact absurd isAbsent isThere
  · rw [evaluated, isLone.concatenation_eq]
    rfl
  · rw [evaluated]
    rfl

/-- A text comes out as a datum exactly when a placeholder with that datum stands alone. -/
theorem evaluate_eq_value_iff {value : Value} :
    interpolation.evaluate context missing = .value value ↔
      interpolation.IsLone context (some value) := by
  obtain ⟨evaluated, isAbsent⟩ | ⟨other, evaluated, isLone⟩ | ⟨evaluated, notLone⟩ :=
    interpolation.evaluate_cases context missing
  · rw [evaluated]
    refine iff_of_false nofun fun isLone => ?_
    cases isLone.unique isAbsent
  · rw [evaluated]
    constructor
    · intro same
      cases same
      exact isLone
    · intro otherIsLone
      cases isLone.unique otherIsLone
      rfl
  · rw [evaluated]
    exact iff_of_false nofun (notLone (some value))

/-- The text replaces the children of an element: there is some text, and it is not that of the
datum false. -/
structure Replaces (interpolation : Interpolation) (context : Value) (missing : Missing) :
    Prop where
  nonempty : concatenation context missing interpolation.tokens ≠ ""
  notAbsent : ¬interpolation.IsLone context none
  notFalse : ¬interpolation.IsLone context (some (.bool false))

/-- A text is truthy when it is there and not empty, and is not the datum false. -/
theorem isTruthy_evaluate_iff : (interpolation.evaluate context missing).isTruthy = true ↔
    (∃ content, (interpolation.evaluate context missing).text? = some content ∧ content ≠ "") ∧
      ¬interpolation.IsLone context (some (.bool false)) := by
  rw [Interpolated.isTruthy_iff, ne_eq, evaluate_eq_value_iff]

/-- The truthy texts are those that replace children. -/
theorem isTruthy_evaluate_iff_replaces :
    (interpolation.evaluate context missing).isTruthy = true ↔
      interpolation.Replaces context missing := by
  rw [isTruthy_evaluate_iff]
  constructor
  · rintro ⟨⟨content, shown, nonempty⟩, notFalse⟩
    have notAbsent : ¬interpolation.IsLone context none := by
      intro isAbsent
      cases shown.symm.trans (text?_evaluate_eq_none_iff.2 isAbsent)
    rw [text?_evaluate notAbsent] at shown
    cases shown
    exact ⟨nonempty, notAbsent, notFalse⟩
  · rintro ⟨nonempty, notAbsent, notFalse⟩
    exact ⟨⟨_, text?_evaluate notAbsent, nonempty⟩, notFalse⟩

end Interpolation

namespace Plan

variable {plan : Plan} {interpolation : Interpolation} {missing : Missing} {item : Value}

/-- A text that replaces children does so as the concatenation of its tokens. -/
theorem replacement?_of_replaces (hasText : plan.text = some interpolation)
    (replaces : interpolation.Replaces item missing) :
    plan.replacement? missing item =
      some (Interpolation.concatenation item missing interpolation.tokens) := by
  have truthy := Interpolation.isTruthy_evaluate_iff_replaces.2 replaces
  rw [replacement?, hasText, Option.bind_some, if_pos truthy,
    Interpolation.text?_evaluate replaces.notAbsent]

/-- Any other text leaves the children there. -/
theorem replacement?_of_not_replaces (hasText : plan.text = some interpolation)
    (notReplaces : ¬interpolation.Replaces item missing) :
    plan.replacement? missing item = none := by
  have notTruthy := mt Interpolation.isTruthy_evaluate_iff_replaces.1 notReplaces
  rw [replacement?, hasText, Option.bind_some, if_neg notTruthy]

end Plan

namespace Renderer

variable {plan : Plan} {inners : List Renderer} {interpolation : Interpolation}
  {missing : Missing} {item : Value}

/-- What stands between the tags of a copy: a text, or else the children. -/
def filling (missing : Missing) (plan : Plan) (inners : List Renderer) (item : Value) : List Node :=
  match plan.replacement? missing item with
  | some content => [.text content]
  | none => plan.shell.children ++ renderAll missing inners item

/-- A copy has the tag of the shell and the attributes that are written, with its filling
between the tags. -/
theorem copy_eq (item : Value) : copy missing plan inners item =
    .element plan.shell.tag (plan.dressed missing item).attributes
      (filling missing plan inners item) := by
  rw [copy, filling, Plan.dressed_eq]
  cases plan.replacement? missing item with
  | some content => rfl
  | none => rfl

/-- A text that replaces the children is all that a copy is filled with. -/
theorem filling_of_replaces (hasText : plan.text = some interpolation)
    (replaces : interpolation.Replaces item missing) : filling missing plan inners item =
      [.text (Interpolation.concatenation item missing interpolation.tokens)] := by
  rw [filling, Plan.replacement?_of_replaces hasText replaces]

/-- With any other text a copy is filled with the children. -/
theorem filling_of_not_replaces (hasText : plan.text = some interpolation)
    (notReplaces : ¬interpolation.Replaces item missing) :
    filling missing plan inners item = plan.shell.children ++ renderAll missing inners item := by
  rw [filling, Plan.replacement?_of_not_replaces hasText notReplaces]

end Renderer

namespace Interpolation

/-- A text is the concatenation of its tokens, whatever they are, unless it is one placeholder
whose datum is absent: then there is no text. It is truthy when it is there and not empty, and
is not the datum false. Exactly the truthy texts take the place of an element's children. -/
theorem evaluate_concatenates (interpolation : Interpolation) (missing : Missing) :
    (∀ context,
      ((interpolation.evaluate context missing).text? = none ↔ interpolation.IsLone context none) ∧
      (¬interpolation.IsLone context none → (interpolation.evaluate context missing).text? =
        some (concatenation context missing interpolation.tokens)) ∧
      ((interpolation.evaluate context missing).isTruthy = true ↔
        (∃ content, (interpolation.evaluate context missing).text? = some content ∧
          content ≠ "") ∧ ¬interpolation.IsLone context (some (.bool false)))) ∧
    ∀ plan inners, plan.text = some interpolation →
      (∀ context, Renderer.render missing (.element plan inners) context =
        if plan.isPresent context then
          (plan.contexts context).map fun item =>
            .element plan.shell.tag (plan.dressed missing item).attributes
              (Renderer.filling missing plan inners item)
        else []) ∧
      ∀ item,
        (interpolation.Replaces item missing → Renderer.filling missing plan inners item =
          [.text (concatenation item missing interpolation.tokens)]) ∧
        (¬interpolation.Replaces item missing → Renderer.filling missing plan inners item =
          plan.shell.children ++ Renderer.renderAll missing inners item) := by
  refine ⟨fun context => ⟨text?_evaluate_eq_none_iff, text?_evaluate, isTruthy_evaluate_iff⟩, ?_⟩
  intro plan inners hasText
  refine ⟨fun context => ?_, fun item => ⟨?_, ?_⟩⟩
  · rw [Renderer.render_element, funext Renderer.copy_eq]
  · exact Renderer.filling_of_replaces hasText
  · exact Renderer.filling_of_not_replaces hasText

/-- A placeholder that stands alone leaves the children there when its datum is absent or false.
After an empty literal the same placeholder takes their place. -/
theorem evaluate_concatenates_alone : ∃ (alone among : Interpolation)
    (paragraph : Interpolation → Renderer) (untrue : Value),
    alone.tokens = [.path (.ofText "x")] ∧ among.tokens = [.literal "", .path (.ofText "x")] ∧
    (alone.evaluate .null .raw).text? = none ∧
    Renderer.render .raw (paragraph alone) .null = [.element "p" [] [.text "kept"]] ∧
    Renderer.render .raw (paragraph alone) untrue = [.element "p" [] [.text "kept"]] ∧
    Renderer.render .raw (paragraph among) .null =
      [.element "p" [] [.text "\x7b\x7bx\x7d\x7d"]] ∧
    Renderer.render .raw (paragraph among) untrue = [.element "p" [] [.text "false"]] := by
  let alone : Interpolation := ⟨[.path (.ofText "x")]⟩
  let among : Interpolation := ⟨[.literal "", .path (.ofText "x")]⟩
  let plan (text : Interpolation) : Plan := ⟨⟨"p", [], []⟩, none, some text, none, []⟩
  let untrue : Value := .object [("x", .bool false)]
  have isAbsent : alone.IsLone .null none := ⟨.ofText "x", rfl, rfl⟩
  have isFalse : alone.IsLone untrue (some (.bool false)) := ⟨.ofText "x", rfl, rfl⟩
  have notLone : ∀ context found, ¬among.IsLone context found := by
    rintro context found ⟨path, isAlone, -⟩
    cases isAlone
  have present : ∀ text data, (plan text).isPresent data = true := fun _ _ => rfl
  have once : ∀ text data, (plan text).contexts data = [data] := fun _ _ => rfl
  have kept : ∀ data, ¬alone.Replaces data .raw →
      Renderer.render .raw (.element (plan alone) [.text "kept"]) data =
        [.element "p" [] [.text "kept"]] := by
    intro data notReplaces
    obtain ⟨rendered, filled⟩ :=
      (evaluate_concatenates alone .raw).2 (plan alone) [.text "kept"] rfl
    rw [rendered, if_pos (present _ _), once, List.map_singleton, (filled data).2 notReplaces]
    rfl
  have replaced : ∀ data, concatenation data .raw among.tokens ≠ "" →
      Renderer.render .raw (.element (plan among) [.text "kept"]) data =
        [.element "p" [] [.text (concatenation data .raw among.tokens)]] := by
    intro data nonempty
    have replaces : among.Replaces data .raw := ⟨nonempty, notLone _ _, notLone _ _⟩
    obtain ⟨rendered, filled⟩ :=
      (evaluate_concatenates among .raw).2 (plan among) [.text "kept"] rfl
    rw [rendered, if_pos (present _ _), once, List.map_singleton, (filled data).1 replaces]
    rfl
  exact ⟨alone, among, fun text => .element (plan text) [.text "kept"], untrue, rfl, rfl,
    ((evaluate_concatenates alone .raw).1 .null).1.2 isAbsent,
    kept .null fun replaces => replaces.notAbsent isAbsent,
    kept untrue fun replaces => replaces.notFalse isFalse,
    replaced .null (by decide), replaced untrue (by decide)⟩

end Interpolation

end Templating
