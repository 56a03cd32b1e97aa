import Templating.Proofs.Markup.Decoding

/-!
# Scanning attributes

The scanners of attribute values and attributes find what the grammar says.
`Piece.tagRest_of_scanAttributes` and `Piece.scanAttributes_of_tagRest` are the two
directions for all attributes of an opening tag together.
-/

namespace Templating.Piece

open Grammar
open Text (Blanks Ends)

section Values

variable {written content next rest : List Char}

/-- What comes next is needed only to see where a value ends. -/
theorem isValue_append_iff (nonempty : next ≠ []) :
    IsValue written content (next ++ rest) ↔ IsValue written content next := by
  obtain ⟨c, others, rfl⟩ := List.exists_cons_of_ne_nil nonempty
  constructor
  · intro isValue
    cases isValue with
    | quoted isQuote unquoted => exact .quoted isQuote unquoted
    | bare noQuote areBareChars ended => exact .bare noQuote areBareChars ended
    | empty => exact .empty
  · intro isValue
    cases isValue with
    | quoted isQuote unquoted => exact .quoted isQuote unquoted
    | bare noQuote areBareChars ended => exact .bare noQuote areBareChars ended
    | empty => exact .empty

/-- A quoted value is scanned up to the next quote of its kind. -/
theorem scanValue_quote {quote : Char} (isQuote : quote = '"' ∨ quote = '\'') :
    scanValue (quote :: written) = .ok (content, rest) ↔
      written = content ++ quote :: rest ∧ quote ∉ content := by
  rw [← Text.cutAt?_singleton_eq_some_iff, scanValue, if_pos isQuote]
  cases Text.cutAt? [quote] written with
  | some parts =>
    obtain ⟨before, after⟩ := parts
    simp
  | none => simp

/-- A scanned value is one, if something comes next and no blank came before. -/
theorem isValue_of_scanValue {input : List Char} (ended : Ends Text.isBlank input)
    (nonempty : rest ≠ []) (scanned : scanValue input = .ok (content, rest)) :
    ∃ written, input = written ++ rest ∧ IsValue written content rest := by
  obtain ⟨c, after, rfl⟩ := List.exists_cons_of_ne_nil nonempty
  cases input with
  | nil => cases scanned
  | cons first others =>
    by_cases isQuote : first = '"' ∨ first = '\''
    · obtain ⟨rfl, unquoted⟩ := (scanValue_quote isQuote).1 scanned
      exact ⟨first :: (content ++ [first]), by simp, .quoted isQuote unquoted⟩
    · rw [scanValue, if_neg isQuote] at scanned
      simp only [Except.ok.injEq, Prod.mk.injEq, Text.eq_run_iff] at scanned
      obtain ⟨parts, areBareChars, runEnded⟩ := scanned
      have stop := isBareChar_eq_false_iff.1 (runEnded c rfl)
      refine ⟨content, parts, ?_⟩
      cases content with
      | nil =>
        rw [List.nil_append, List.cons.injEq] at parts
        obtain ⟨rfl, rfl⟩ := parts
        have bracket : first = '>' := by
          rcases stop with blank | bracket
          · rw [ended first rfl] at blank
            cases blank
          · exact bracket
        rw [bracket]
        exact .empty
      | cons head tail =>
        rw [List.cons_append, List.cons.injEq] at parts
        obtain ⟨rfl, rfl⟩ := parts
        exact .bare (not_or.1 isQuote) (fun c member => isBareChar_iff.1 (areBareChars c member))
          stop

/-- A value is scanned as what it holds. -/
theorem scanValue_of_isValue (isValue : IsValue written content next) :
    scanValue (written ++ next) = .ok (content, next) := by
  cases isValue with
  | quoted isQuote unquoted =>
    rw [List.cons_append, scanValue_quote isQuote]
    exact ⟨by simp, unquoted⟩
  | @bare first c others after noQuote areBareChars ended =>
    rw [List.cons_append, scanValue, if_neg (not_or.2 noQuote)]
    simp only [Except.ok.injEq, Prod.mk.injEq, Text.eq_run_iff]
    exact ⟨rfl, fun other member => isBareChar_iff.2 (areBareChars other member),
      Ends.cons (isBareChar_eq_false_iff.2 ended)⟩
  | empty => rfl

/-- No blank comes before a value. -/
theorem ends_blanks_of_isValue (isValue : IsValue written content next) :
    Ends Text.isBlank (written ++ next) := by
  cases isValue with
  | quoted isQuote unquoted =>
    refine Ends.cons ?_
    rcases isQuote with rfl | rfl
    · decide
    · decide
  | bare noQuote areBareChars ended =>
    exact Ends.cons (areBareChars _ List.mem_cons_self).1
  | empty => exact Ends.cons (by decide)

end Values

section Attributes

variable {name after rest : List Char} {entry : Attribute}

/-- The name of an attribute is scanned up to the first character that is none of a
name's, and what follows it decides whether there is a value. -/
theorem scanAttribute_name (isName : IsName name) (ended : Ends isNameChar after) :
    scanAttribute (name ++ after) =
      match Text.trimStart after with
      | '=' :: rest =>
        (scanValue (Text.trimStart rest)).map fun (value, rest') =>
          (⟨String.ofList name, String.ofList (Entity.decode value)⟩, rest')
      | rest => .ok (⟨String.ofList name, ""⟩, rest) := by
  have scanned := scanAttribute.eq_def (name ++ after)
  have areNameChars : ∀ c ∈ name, isNameChar c = true := fun c member =>
    isNameChar_iff.2 (isName.areNameChars c member)
  rw [Text.takeWhile_run areNameChars ended, Text.dropWhile_run areNameChars ended] at scanned
  exact scanned.trans (if_neg isName.nonempty)

/-- A scanned attribute begins with a name. -/
theorem exists_name_of_scanAttribute {input : List Char}
    (scanned : scanAttribute input = .ok (entry, rest)) :
    ∃ name after, input = name ++ after ∧ IsName name ∧ Ends isNameChar after := by
  have nonempty : input.takeWhile isNameChar ≠ [] := by
    intro empty
    rw [scanAttribute, if_pos empty] at scanned
    cases scanned
  have isName : IsName (input.takeWhile isNameChar) :=
    ⟨nonempty, fun c member => isNameChar_iff.1 (Text.accepted_of_mem_takeWhile input c member)⟩
  exact ⟨input.takeWhile isNameChar, input.dropWhile isNameChar,
    List.takeWhile_append_dropWhile.symm, isName, Text.ends_dropWhile input⟩

/-- A scanned attribute in front of the rest of a tag makes up the rest of a tag with
it. -/
theorem tagRest_of_scanAttribute {input written next : List Char} {entries : List Attribute}
    {closed : Bool} (scanned : scanAttribute input = .ok (entry, written ++ next))
    (more : TagRest written entries closed) :
    ∃ longer, input = longer ++ next ∧ TagRest longer (entry :: entries) closed := by
  obtain ⟨name, after, rfl, isName, ended⟩ := exists_name_of_scanAttribute scanned
  rw [scanAttribute_name isName ended] at scanned
  obtain ⟨before, beforeBlank, afterParts⟩ := Text.exists_blanks_append_trimStart after
  split at scanned
  · next rest found =>
    rw [found] at afterParts
    cases valueScanned : scanValue (Text.trimStart rest) with
    | error stop =>
      rw [valueScanned] at scanned
      cases scanned
    | ok pair =>
      obtain ⟨content, left⟩ := pair
      rw [valueScanned] at scanned
      simp only [Except.map, Except.ok.injEq, Prod.mk.injEq] at scanned
      obtain ⟨rfl, rfl⟩ := scanned
      have remains : written ++ next ≠ [] := List.append_ne_nil_of_left_ne_nil more.ne_nil next
      obtain ⟨value, valueParts, isValue⟩ :=
        isValue_of_scanValue (Text.ends_trimStart rest) remains valueScanned
      obtain ⟨blanks, areBlank, restParts⟩ := Text.exists_blanks_append_trimStart rest
      refine ⟨[] ++ name ++ before ++ '=' :: (blanks ++ value ++ written), ?_,
        .valued Blanks.nil isName beforeBlank areBlank ((isValue_append_iff more.ne_nil).1 isValue)
          (Entity.decodes_decode content) more⟩
      rw [afterParts, restParts, valueParts]
      simp
  · next noEquals =>
    simp only [Except.ok.injEq, Prod.mk.injEq] at scanned
    obtain ⟨rfl, left⟩ := scanned
    rw [left] at afterParts noEquals
    have longer := more.blanks_append beforeBlank
    have stops : Ends isNameChar (before ++ written) := by
      rw [afterParts, ← List.append_assoc] at ended
      exact (Text.ends_append_iff longer.ne_nil).1 ended
    have noValue : ∀ others, before ++ written ≠ '=' :: others := by
      intro others same
      cases before with
      | nil => exact noEquals (others ++ next) (by rw [List.nil_append] at same; rw [same]; rfl)
      | cons blank blanks =>
        have isBlank := beforeBlank blank List.mem_cons_self
        rw [(List.cons.inj same).1] at isBlank
        exact absurd isBlank (by decide)
    refine ⟨[] ++ name ++ (before ++ written), ?_,
      .bareName Blanks.nil isName (longer.endsBareName (ends_isNameChar_iff.1 stops) noValue)
        longer⟩
    rw [afterParts]
    simp

/-- A tag that ends is scanned to its end. -/
theorem scanAttributes_opened {input : List Char} (trimmed : Text.trimStart input = '>' :: rest) :
    scanAttributes input = .ok ([], false, rest) := by
  rw [scanAttributes]
  split
  · next found => rw [trimmed] at found; cases found
  · next found => rw [trimmed] at found; cases found
  · next found => rw [trimmed] at found; cases found; rfl
  · next notOpened found => exact (notOpened (List.cons.inj (found.symm.trans trimmed)).1).elim

/-- A tag that closes its element is scanned to its end. -/
theorem scanAttributes_closed {input : List Char}
    (trimmed : Text.trimStart input = '/' :: '>' :: rest) :
    scanAttributes input = .ok ([], true, rest) := by
  rw [scanAttributes]
  split
  · next found => rw [trimmed] at found; cases found
  · next found => rw [trimmed] at found; cases found; rfl
  · next found => rw [trimmed] at found; cases found
  · next notClosed _ found =>
    have parts := List.cons.inj (found.symm.trans trimmed)
    exact (notClosed rest parts.1 parts.2).elim

/-- An attribute is scanned before the attributes behind it. -/
theorem scanAttributes_name {input : List Char} {entries : List Attribute} {closed : Bool}
    {next : List Char} (isName : IsName name)
    (trimmed : Text.trimStart input = name ++ after)
    (scanned : scanAttribute (name ++ after) = .ok (entry, rest))
    (more : scanAttributes rest = .ok (entries, closed, next)) :
    scanAttributes input = .ok (entry :: entries, closed, next) := by
  obtain ⟨c, others, rfl, accepted⟩ := isName.exists_cons
  rw [scanAttributes]
  split
  · next found => rw [trimmed] at found; cases found
  · next found =>
    rw [(List.cons.inj (trimmed.symm.trans found)).1] at accepted
    exact absurd accepted (by decide)
  · next found =>
    rw [(List.cons.inj (trimmed.symm.trans found)).1] at accepted
    exact absurd accepted (by decide)
  · next found =>
    obtain ⟨rfl, rfl⟩ := List.cons.inj (trimmed.symm.trans found)
    split
    · next stop failed => cases scanned.symm.trans failed
    · next entry' rest' same =>
      cases scanned.symm.trans same
      rw [more]
      rfl

/-- The scanned rest of a tag is one. -/
theorem tagRest_of_scanAttributes {input : List Char} {entries : List Attribute} {closed : Bool}
    (scanned : scanAttributes input = .ok (entries, closed, rest)) :
    ∃ written, input = written ++ rest ∧ TagRest written entries closed := by
  fun_induction scanAttributes input generalizing entries closed rest with
  | case1 => cases scanned
  | case2 input after trimmed =>
    cases scanned
    obtain ⟨blanks, areBlank, parts⟩ := Text.exists_blanks_append_trimStart input
    refine ⟨blanks ++ ['/', '>'], ?_, .closed areBlank⟩
    rw [parts, trimmed]
    simp
  | case3 input after trimmed =>
    cases scanned
    obtain ⟨blanks, areBlank, parts⟩ := Text.exists_blanks_append_trimStart input
    refine ⟨blanks ++ ['>'], ?_, .opened areBlank⟩
    rw [parts, trimmed]
    simp
  | case4 => cases scanned
  | case5 input c start _ _ trimmed entry left scannedOne inductionHypothesis =>
    cases more : scanAttributes left with
    | error stop =>
      rw [more] at scanned
      cases scanned
    | ok triple =>
      obtain ⟨others, othersClosed, next⟩ := triple
      rw [more] at scanned
      cases scanned
      obtain ⟨written, rfl, tagRest⟩ := inductionHypothesis more
      obtain ⟨longer, startParts, longerRest⟩ := tagRest_of_scanAttribute scannedOne tagRest
      obtain ⟨blanks, areBlank, parts⟩ := Text.exists_blanks_append_trimStart input
      refine ⟨blanks ++ longer, ?_, longerRest.blanks_append areBlank⟩
      rw [parts, trimmed, startParts, List.append_assoc]

/-- A name that needs no value ends where the scanner sees its end. -/
theorem ends_of_endsBareName {written next : List Char} (ended : EndsBareName written) :
    Ends isNameChar (written ++ next) := by
  cases ended with
  | blank isBlank => exact Ends.cons (isNameChar_eq_false_iff.2 (.inl isBlank))
  | opened => exact Ends.cons (by decide)
  | closed => exact Ends.cons (by decide)

/-- The rest of a tag is scanned as such, whatever comes next. Blanks in front of it
make no difference. -/
theorem scanAttributes_of_tagRest {written : List Char} {entries : List Attribute} {closed : Bool}
    (tagRest : TagRest written entries closed) {input next : List Char}
    (trimmed : Text.trimStart input = Text.trimStart (written ++ next)) :
    scanAttributes input = .ok (entries, closed, next) := by
  induction tagRest generalizing input with
  | opened areBlank =>
    refine scanAttributes_opened (trimmed.trans ?_)
    rw [List.append_assoc]
    exact Text.trimStart_blanks areBlank (Ends.cons (by decide))
  | closed areBlank =>
    refine scanAttributes_closed (trimmed.trans ?_)
    rw [List.append_assoc]
    exact Text.trimStart_blanks areBlank (Ends.cons (by decide))
  | @bareName blanks name rest entries closed areBlank isName ended more inductionHypothesis =>
    have start : Text.trimStart input = name ++ (rest ++ next) := by
      rw [trimmed, List.append_assoc, List.append_assoc]
      exact Text.trimStart_blanks areBlank isName.ends_blank
    refine scanAttributes_name isName start ?_
      (inductionHypothesis (Text.trimStart_trimStart (rest ++ next)))
    rw [scanAttribute_name isName (ends_of_endsBareName ended)]
    obtain ⟨c, others, found, -, notEquals⟩ := more.trimStart_append next
    split
    · next after same => exact absurd (List.cons.inj (found.symm.trans same)).1 notEquals
    · rfl
  | @valued blanks name before after value content decoded rest entries closed areBlank isName
      beforeBlank afterBlank isValue decodes more inductionHypothesis =>
    have start : Text.trimStart input =
        name ++ (before ++ '=' :: (after ++ (value ++ (rest ++ next)))) := by
      rw [trimmed, ← Text.trimStart_blanks areBlank isName.ends_blank]
      simp
    have stops : Ends isNameChar (before ++ '=' :: (after ++ (value ++ (rest ++ next)))) := by
      cases before with
      | nil => exact Ends.cons (by decide)
      | cons blank others =>
        exact Ends.cons (isNameChar_eq_false_iff.2 (.inl (beforeBlank blank List.mem_cons_self)))
    have fits : IsValue value content (rest ++ next) := (isValue_append_iff more.ne_nil).2 isValue
    refine scanAttributes_name isName start ?_ (inductionHypothesis rfl)
    rw [scanAttribute_name isName stops, Text.trimStart_blanks beforeBlank (Ends.cons (by decide))]
    simp only
    rw [Text.trimStart_blanks afterBlank (ends_blanks_of_isValue fits), scanValue_of_isValue fits,
      Except.map, Entity.decode_of_decodes decodes]

end Attributes

end Templating.Piece
