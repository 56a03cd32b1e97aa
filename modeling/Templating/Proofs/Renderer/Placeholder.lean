import Templating.Proofs.Renderer.Expression
import Templating.Proofs.Renderer.Literal

/-!
# Placeholders

Cutting a text at its placeholders loses nothing of it but the blanks around their keys.
`Interpolation.IsWritten` says which texts some tokens are written as, and
`Interpolation.text` is the one of them without such blanks. `compile_lossless` says that
a text is one that its tokens are written as, and that the text without blanks has the
same tokens, unless a key ends with a brace: without a blank behind it, that brace would
be part of the closing mark.
-/

namespace Templating

/-- A path that a placeholder can hold: not empty, without blanks at its ends, and without a
closing mark inside. -/
structure Path.IsKey (path : Path) : Prop where
  nonempty : path.raw ≠ ""
  trimmed : Text.trim path.raw.toList = path.raw.toList
  unclosed : ¬ Interpolation.closing <:+: path.raw.toList

/-- A key without a brace at its end ends where a closing mark behind it begins. -/
theorem Path.IsKey.isBeforeFirst {path : Path} (isKey : path.IsKey)
    (noBrace : path.raw.toList.getLast? ≠ some '\x7d') :
    Text.IsBeforeFirst Interpolation.closing path.raw.toList :=
  Text.isBeforeFirst_pair_iff.2 ⟨isKey.unclosed, noBrace⟩

/-- How a token is written without any blanks of its own. -/
def Token.text : Token → String
  | .literal content => content
  | .path target => Interpolation.placeholder target

namespace Interpolation

/-- How a text is written without blanks around the keys of its placeholders. -/
def text (interpolation : Interpolation) : String :=
  String.join (interpolation.tokens.map Token.text)

/-- The characters of some tokens, each written without any blanks of its own. -/
def textOf (tokens : List Token) : List Char :=
  tokens.flatMap fun token => token.text.toList

/-- The texts that some tokens are written as: literals as they are, and paths between the
marks of a placeholder, with any blanks around them. A placeholder ends at the first closing
mark. -/
inductive IsWritten : List Token → List Char → Prop
  | nil : IsWritten [] []
  | literal (content : String) {tokens : List Token} {text : List Char}
      (others : IsWritten tokens text) :
      IsWritten (.literal content :: tokens) (content.toList ++ text)
  | path (path : Path) {front back : List Char} {tokens : List Token} {text : List Char}
      (frontBlank : Text.Blanks front) (backBlank : Text.Blanks back)
      (first : Text.IsBeforeFirst closing (front ++ (path.raw.toList ++ back)))
      (others : IsWritten tokens text) :
      IsWritten (.path path :: tokens)
        (opening ++ (front ++ (path.raw.toList ++ back)) ++ closing ++ text)

section Written

variable {content text : List Char} {tokens : List Token}

/-- Literal text in front is written in front. -/
theorem IsWritten.prependLiteral (isWritten : IsWritten tokens text) (content : List Char) :
    IsWritten (prependLiteral content tokens) (content ++ text) := by
  rw [Interpolation.prependLiteral.eq_def]
  split
  · next empty =>
    rw [empty, List.nil_append]
    exact isWritten
  · split
    · next next rest =>
      cases isWritten with
      | literal next others =>
        have joined := IsWritten.literal (String.ofList (content ++ next.toList)) others
        rwa [String.toList_ofList, List.append_assoc] at joined
    · have alone := IsWritten.literal (String.ofList content) isWritten
      rwa [String.toList_ofList] at alone

/-- A text is one that its tokens are written as. -/
theorem isWritten_tokensOf (text : List Char) : IsWritten (tokensOf text) text := by
  induction text using cutInduction with
  | unclosed text isUnclosed =>
    rw [tokensOf_of_isUnclosed isUnclosed]
    simpa using IsWritten.nil.prependLiteral text
  | marks before inside rest opened closed inductionHypothesis =>
    rw [tokensOf_of_marks opened closed]
    split
    · have written := inductionHypothesis.prependLiteral (before ++ opening ++ inside ++ closing)
      simpa only [List.append_assoc] using written
    · obtain ⟨front, back, frontBlank, backBlank, parts⟩ := Text.exists_blanks_trim_blanks inside
      rw [parts] at closed
      have placeholder : IsWritten
          (.path (.ofText (String.ofList (Text.trim inside))) :: tokensOf rest)
          (opening ++ (front ++ (Text.trim inside ++ back)) ++ closing ++ rest) := by
        have written := IsWritten.path (.ofText (String.ofList (Text.trim inside)))
          frontBlank backBlank
          (by rwa [Path.raw_ofText, String.toList_ofList]) inductionHypothesis
        rwa [Path.raw_ofText, String.toList_ofList] at written
      rw [← parts] at placeholder
      have written := placeholder.prependLiteral before
      simpa only [List.append_assoc] using written

/-- Every placeholder holds a key. -/
theorem isKey_of_mem_tokensOf {path : Path} (member : .path path ∈ tokensOf text) : path.IsKey := by
  induction text using cutInduction with
  | unclosed text isUnclosed =>
    rw [tokensOf_of_isUnclosed isUnclosed, path_mem_prependLiteral_iff] at member
    cases member
  | marks before inside rest opened closed inductionHypothesis =>
    rw [tokensOf_of_marks opened closed] at member
    split at member
    · exact inductionHypothesis (path_mem_prependLiteral_iff.1 member)
    · next filled =>
      rcases List.mem_cons.1 (path_mem_prependLiteral_iff.1 member) with here | later
      · cases here
        refine ⟨by simpa using filled, ?_, ?_⟩
        · rw [Path.raw_ofText, String.toList_ofList, Text.trim_trim]
        · obtain ⟨front, back, -, -, parts⟩ := Text.exists_blanks_trim_blanks inside
          intro marked
          rw [Path.raw_ofText, String.toList_ofList] at marked
          refine (Text.isBeforeFirst_pair_iff.1 closed).1 (marked.trans ?_)
          exact ⟨front, back, by rw [List.append_assoc, ← parts]⟩
      · exact inductionHypothesis later

end Written

section Stable

variable {content text : List Char} {tokens : List Token} {path : Path}

theorem toList_text (interpolation : Interpolation) :
    interpolation.text.toList = textOf interpolation.tokens := by
  rw [Interpolation.text, String.toList_join, List.flatMap_map]
  rfl

@[simp] theorem textOf_nil : textOf [] = [] :=
  rfl

/-- A literal is written as it is. -/
theorem textOf_literal (content : String) (tokens : List Token) :
    textOf (.literal content :: tokens) = content.toList ++ textOf tokens := by
  simp [textOf, Token.text]

/-- A placeholder is written between its marks. -/
theorem textOf_path (path : Path) (tokens : List Token) :
    textOf (.path path :: tokens) = opening ++ (path.raw.toList ++ closing ++ textOf tokens) := by
  simp [textOf, Token.text, placeholder]

/-- Literal text in front is written in front. -/
theorem textOf_prependLiteral (content : List Char) (tokens : List Token) :
    textOf (prependLiteral content tokens) = content ++ textOf tokens := by
  rw [prependLiteral.eq_def]
  split
  · next empty => rw [empty, List.nil_append]
  · split
    · simp [textOf_literal]
    · simp [textOf_literal]

/-- Without braces at the ends of keys, the tokens of a text are also those of the text that
they are written as without blanks. -/
theorem tokensOf_textOf (noBraces : ∀ path, .path path ∈ tokensOf text →
      path.raw.toList.getLast? ≠ some '\x7d') :
    tokensOf (textOf (tokensOf text)) = tokensOf text := by
  induction text using cutInduction with
  | unclosed text isUnclosed =>
    have literal := tokensOf_of_isUnclosed isUnclosed
    rw [literal, textOf_prependLiteral, textOf_nil, List.append_nil, literal]
  | marks before inside rest opened closed inductionHypothesis =>
    have cut := tokensOf_of_marks opened closed rest
    by_cases blank : Text.trim inside = []
    · rw [if_pos blank] at cut
      rw [cut] at noBraces ⊢
      have again := tokensOf_of_marks opened closed (textOf (tokensOf rest))
      rw [if_pos blank, inductionHypothesis fun path member =>
        noBraces path (path_mem_prependLiteral_iff.2 member)] at again
      rw [textOf_prependLiteral]
      simpa only [List.append_assoc] using again
    · rw [if_neg blank] at cut
      have keyMember : .path (.ofText (String.ofList (Text.trim inside))) ∈
          tokensOf (before ++ opening ++ (inside ++ closing ++ rest)) := by
        rw [cut, path_mem_prependLiteral_iff]
        exact List.mem_cons_self
      -- Without a brace at its end, the key by itself ends where its mark begins.
      have keyClosed := (isKey_of_mem_tokensOf keyMember).isBeforeFirst (noBraces _ keyMember)
      rw [Path.raw_ofText, String.toList_ofList] at keyClosed
      rw [cut] at noBraces ⊢
      have again := tokensOf_of_marks opened keyClosed (textOf (tokensOf rest))
      rw [Text.trim_trim, if_neg blank, inductionHypothesis fun path member =>
        noBraces path (path_mem_prependLiteral_iff.2 (List.mem_cons_of_mem _ member))] at again
      rw [textOf_prependLiteral, textOf_path, Path.raw_ofText, String.toList_ofList]
      simpa only [List.append_assoc] using again

/-- Blanks around keys only make a text longer. -/
theorem IsWritten.length_textOf_le (isWritten : IsWritten tokens text) :
    (textOf tokens).length ≤ text.length := by
  induction isWritten with
  | nil => exact Nat.le_refl _
  | literal content others inductionHypothesis =>
    rw [textOf_literal, List.length_append, List.length_append]
    omega
  | path key frontBlank backBlank first others inductionHypothesis =>
    rw [textOf_path]
    simp only [List.length_append]
    omega

/-- In a text without blanks around keys, each key by itself ends where its mark begins. -/
theorem IsWritten.isBeforeFirst (isWritten : IsWritten tokens text)
    (short : text.length ≤ (textOf tokens).length) (member : .path path ∈ tokens) :
    Text.IsBeforeFirst closing path.raw.toList := by
  induction isWritten with
  | nil => cases member
  | literal content others inductionHypothesis =>
    rw [textOf_literal, List.length_append, List.length_append] at short
    rcases List.mem_cons.1 member with same | later
    · cases same
    · exact inductionHypothesis (by omega) later
  | path key frontBlank backBlank first others inductionHypothesis =>
    next front back tokens text =>
    have longer := others.length_textOf_le
    rw [textOf_path] at short
    simp only [List.length_append] at short
    rcases List.mem_cons.1 member with same | later
    · cases same
      -- No length is left for the blanks.
      have noFront : front = [] := List.length_eq_zero_iff.1 (by omega)
      have noBack : back = [] := List.length_eq_zero_iff.1 (by omega)
      rwa [noFront, noBack, List.nil_append, List.append_nil] at first
    · exact inductionHypothesis (by omega) later

end Stable

variable {template : String}

/-- When no placeholder of several tokens leads anywhere and each leaves itself in the text,
the text is written without blanks around its keys. -/
theorem evaluate_raw_of_absent {interpolation : Interpolation} {context : Value}
    (several : 2 ≤ interpolation.tokens.length)
    (absent : ∀ path ∈ interpolation.paths, path.resolve? context = none) :
    interpolation.evaluate context .raw = .text interpolation.text := by
  obtain ⟨first, second, others, same⟩ : ∃ first second others,
      interpolation.tokens = first :: second :: others := by
    match tokens : interpolation.tokens, several with
    | first :: second :: others, _ => exact ⟨first, second, others, rfl⟩
  have contributions : interpolation.tokens.map (contribution context .raw) =
      interpolation.tokens.map Token.text := by
    apply List.map_congr_left
    intro token member
    cases token with
    | literal content => rfl
    | path path => simp only [contribution, absent path (mem_paths_iff.2 member), Token.text]
  obtain ⟨tokens⟩ := interpolation
  cases same
  rw [evaluate_cons_cons, contributions, text]

/-- Tokenising loses nothing but blanks around keys: literals are not empty, stand apart and
hold no placeholder but blank ones, placeholders hold keys, and the tokens are written as the
text that they were cut from. Written without these blanks, as it is when no placeholder leads
anywhere, a text has the same tokens unless some key ends with a brace. -/
theorem compile_lossless (template : String) :
    LiteralsApart (compile template).tokens ∧
      (∀ content, .literal content ∈ (compile template).tokens → IsVerbatim content.toList) ∧
      (∀ path ∈ (compile template).paths, path.IsKey) ∧
      IsWritten (compile template).tokens template.toList ∧
      (∀ context, 2 ≤ (compile template).tokens.length →
        (∀ path ∈ (compile template).paths, path.resolve? context = none) →
          (compile template).evaluate context .raw = .text (compile template).text) ∧
      (compile (compile template).text = compile template ↔
        ∀ path ∈ (compile template).paths, path.raw.toList.getLast? ≠ some '\x7d') := by
  refine ⟨literalsApart_tokensOf _, fun _ => isVerbatim_of_mem_tokensOf, ?keys,
    isWritten_tokensOf _, ?raw, ?stable⟩
  case keys =>
    intro path member
    exact isKey_of_mem_tokensOf (mem_paths_iff.1 member)
  case raw =>
    intro context several absent
    exact evaluate_raw_of_absent several absent
  case stable =>
    constructor
    · intro same path member
      -- The tokens are those of the text without blanks, in which every key ends at its mark.
      have isWritten := isWritten_tokensOf (compile template).text.toList
      change IsWritten (compile (compile template).text).tokens _ at isWritten
      rw [same, toList_text] at isWritten
      have keyClosed := isWritten.isBeforeFirst (Nat.le_refl _) (mem_paths_iff.1 member)
      exact (Text.isBeforeFirst_pair_iff.1 keyClosed).2
    · intro noBraces
      have again := tokensOf_textOf fun path member => noBraces path (mem_paths_iff.2 member)
      rw [compile, toList_text]
      exact congrArg Interpolation.mk again

/-- A brace in front of a key, a blank placeholder and an opening mark that nothing closes
stay as they are, and only the blanks around the key go. A brace behind a key does not: it
becomes part of the closing mark. -/
theorem compile_lossless_braces :
    (compile "\x7b\x7b \x7ba \x7d\x7d, \x7b\x7b \x7d\x7d\x7b\x7bb").evaluate .null .raw =
        .text "\x7b\x7b\x7ba\x7d\x7d, \x7b\x7b \x7d\x7d\x7b\x7bb" ∧
      compile "\x7b\x7b\x7ba\x7d\x7d, \x7b\x7b \x7d\x7d\x7b\x7bb" =
        compile "\x7b\x7b \x7ba \x7d\x7d, \x7b\x7b \x7d\x7d\x7b\x7bb" ∧
      compile (compile "\x7b\x7ba\x7d \x7d\x7d").text ≠ compile "\x7b\x7ba\x7d \x7d\x7d" := by
  have tokens : compile "\x7b\x7b \x7ba \x7d\x7d, \x7b\x7b \x7d\x7d\x7b\x7bb" =
      ⟨[.path (.ofText "\x7ba"), .literal ", \x7b\x7b \x7d\x7d\x7b\x7bb"]⟩ := by cbv
  have braceTokens : compile "\x7b\x7ba\x7d \x7d\x7d" = ⟨[.path (.ofText "a\x7d")]⟩ := by cbv
  obtain ⟨-, -, -, -, raw, stable⟩ :=
    compile_lossless "\x7b\x7b \x7ba \x7d\x7d, \x7b\x7b \x7d\x7d\x7b\x7bb"
  obtain ⟨-, -, -, -, -, unstable⟩ := compile_lossless "\x7b\x7ba\x7d \x7d\x7d"
  rw [tokens] at raw stable ⊢
  rw [braceTokens] at unstable ⊢
  refine ⟨raw .null (by decide) (by decide), stable.2 (by decide), ?_⟩
  intro same
  exact absurd (unstable.1 same _ List.mem_cons_self) (by decide)

end Interpolation

end Templating
