import Templating.Markup.Node

/-!
# Forests

Sibling nodes with everything below them, as one thing to do induction on, and what
holds of all their elements and texts. `Node.normalizeAll` gives forests a normal form in which
no text is empty and none stands next to another one; `Node.normalizeAll_eq_self_iff`
says that `Node.IsNormal` describes exactly the forests in that form.
-/

namespace Templating.Node

/-- Induction over sibling nodes, from the last one to the first, in which the children
of an element come before it. -/
@[elab_as_elim]
theorem forestInduction {motive : List Node → Prop} (nil : motive [])
    (text : ∀ content nodes, motive nodes → motive (.text content :: nodes))
    (element : ∀ tag attributes children nodes, motive children → motive nodes →
      motive (.element tag attributes children :: nodes)) :
    ∀ nodes, motive nodes
  | [] => nil
  | .text content :: nodes => text content nodes (forestInduction nil text element nodes)
  | .element tag attributes children :: nodes =>
    element tag attributes children nodes (forestInduction nil text element children)
      (forestInduction nil text element nodes)

mutual

/-- Something holds of a node, if it is an element, and of all elements below it. -/
def Everywhere (holds : Element → Prop) : Node → Prop
  | .text _ => True
  | .element tag attributes children =>
    holds ⟨tag, attributes, children⟩ ∧ EverywhereAll holds children

/-- Something holds of all elements of a forest. -/
def EverywhereAll (holds : Element → Prop) : List Node → Prop
  | [] => True
  | node :: nodes => Everywhere holds node ∧ EverywhereAll holds nodes

end

mutual

/-- Whether a decidable property holds everywhere in a node is decidable. -/
def decEverywhere (holds : Element → Prop) [DecidablePred holds] :
    (node : Node) → Decidable (Everywhere holds node)
  | .text _ => isTrue (by simp [Everywhere])
  | .element tag attributes children =>
    have := decEverywhereAll holds children
    decidable_of_iff (holds ⟨tag, attributes, children⟩ ∧ EverywhereAll holds children)
      (by simp [Everywhere])

/-- Whether a decidable property holds everywhere in a forest is decidable. -/
def decEverywhereAll (holds : Element → Prop) [DecidablePred holds] :
    (nodes : List Node) → Decidable (EverywhereAll holds nodes)
  | [] => isTrue (by simp [EverywhereAll])
  | node :: nodes =>
    have := decEverywhere holds node
    have := decEverywhereAll holds nodes
    decidable_of_iff (Everywhere holds node ∧ EverywhereAll holds nodes)
      (by simp [EverywhereAll])

end

instance (holds : Element → Prop) [DecidablePred holds] : DecidablePred (EverywhereAll holds) :=
  decEverywhereAll holds

section Everywhere

variable {holds : Element → Prop} {nodes : List Node}

@[simp] theorem everywhereAll_nil : EverywhereAll holds [] := by
  rw [EverywhereAll]
  trivial

@[simp] theorem everywhereAll_text {content : String} :
    EverywhereAll holds (.text content :: nodes) ↔ EverywhereAll holds nodes := by
  rw [EverywhereAll, Everywhere, true_and]

@[simp] theorem everywhereAll_element {tag : String} {attributes : List Attribute}
    {children : List Node} :
    EverywhereAll holds (.element tag attributes children :: nodes) ↔
      (holds ⟨tag, attributes, children⟩ ∧ EverywhereAll holds children) ∧
        EverywhereAll holds nodes := by
  rw [EverywhereAll, Everywhere]

/-- Something holds everywhere in a forest when it does everywhere in each of its nodes. -/
theorem everywhereAll_iff_forall_mem :
    EverywhereAll holds nodes ↔ ∀ node ∈ nodes, Everywhere holds node := by
  induction nodes with
  | nil => simp
  | cons node nodes inductionHypothesis =>
    rw [EverywhereAll, inductionHypothesis, List.forall_mem_cons]

/-- What holds everywhere in a forest holds everywhere in a part of it. -/
theorem EverywhereAll.of_subset {part : List Node} (everywhere : EverywhereAll holds nodes)
    (subset : part ⊆ nodes) : EverywhereAll holds part := by
  rw [everywhereAll_iff_forall_mem] at everywhere ⊢
  exact fun node member => everywhere node (subset member)

/-- What follows from something that holds everywhere holds everywhere. -/
theorem EverywhereAll.mono {other : Element → Prop} (everywhere : EverywhereAll holds nodes)
    (implies : ∀ element, holds element → other element) : EverywhereAll other nodes := by
  induction nodes using forestInduction with
  | nil => exact everywhereAll_nil
  | text content nodes inductionHypothesis =>
    exact everywhereAll_text.2 (inductionHypothesis (everywhereAll_text.1 everywhere))
  | element tag attributes children nodes childrenHypothesis inductionHypothesis =>
    obtain ⟨⟨here, below⟩, later⟩ := everywhereAll_element.1 everywhere
    exact everywhereAll_element.2
      ⟨⟨implies _ here, childrenHypothesis below⟩, inductionHypothesis later⟩

/-- What holds of every element holds everywhere. -/
theorem everywhereAll_of_forall (always : ∀ element, holds element) (nodes : List Node) :
    EverywhereAll holds nodes := by
  induction nodes using forestInduction with
  | nil => exact everywhereAll_nil
  | text content nodes inductionHypothesis => exact everywhereAll_text.2 inductionHypothesis
  | element tag attributes children nodes childrenHypothesis inductionHypothesis =>
    exact everywhereAll_element.2 ⟨⟨always _, childrenHypothesis⟩, inductionHypothesis⟩

/-- Two things hold everywhere when each of them does. -/
theorem everywhereAll_and_iff {other : Element → Prop} :
    EverywhereAll (fun element => holds element ∧ other element) nodes ↔
      EverywhereAll holds nodes ∧ EverywhereAll other nodes := by
  induction nodes using forestInduction with
  | nil => simp
  | text content nodes inductionHypothesis => simpa using inductionHypothesis
  | element tag attributes children nodes childrenHypothesis inductionHypothesis =>
    rw [everywhereAll_element, everywhereAll_element, everywhereAll_element, childrenHypothesis,
      inductionHypothesis]
    constructor
    · rintro ⟨⟨⟨here, otherHere⟩, below, otherBelow⟩, later, otherLater⟩
      exact ⟨⟨⟨here, below⟩, later⟩, ⟨otherHere, otherBelow⟩, otherLater⟩
    · rintro ⟨⟨⟨here, below⟩, later⟩, ⟨otherHere, otherBelow⟩, otherLater⟩
      exact ⟨⟨⟨here, otherHere⟩, below, otherBelow⟩, later, otherLater⟩

end Everywhere

section MadeOf

variable {α : Type} {isText : String → Prop} {isHead : String → List Attribute → Prop}
  {nodes : List Node}

/-- A forest in which all texts are of one kind, and all elements are of another one by
their tags and attributes. -/
inductive MadeOf (isText : String → Prop) (isHead : String → List Attribute → Prop) :
    List Node → Prop
  | nil : MadeOf isText isHead []
  | text {content : String} {nodes : List Node} (here : isText content)
      (later : MadeOf isText isHead nodes) : MadeOf isText isHead (.text content :: nodes)
  | element {tag : String} {attributes : List Attribute} {children nodes : List Node}
      (here : isHead tag attributes) (below : MadeOf isText isHead children)
      (later : MadeOf isText isHead nodes) :
      MadeOf isText isHead (.element tag attributes children :: nodes)

theorem MadeOf.append {others : List Node} (made : MadeOf isText isHead nodes)
    (othersMade : MadeOf isText isHead others) : MadeOf isText isHead (nodes ++ others) := by
  induction made with
  | nil => exact othersMade
  | text here later inductionHypothesis => exact .text here inductionHypothesis
  | element here below later belowHypothesis inductionHypothesis =>
    exact .element here below inductionHypothesis

theorem MadeOf.map {f : α → Node} (items : List α)
    (made : ∀ item, MadeOf isText isHead [f item]) : MadeOf isText isHead (items.map f) := by
  induction items with
  | nil => exact .nil
  | cons item items inductionHypothesis => exact (made item).append inductionHypothesis

/-- The kind of the elements holds everywhere. -/
theorem MadeOf.everywhereAll (made : MadeOf isText isHead nodes) :
    EverywhereAll (fun element => isHead element.tag element.attributes) nodes := by
  induction made with
  | nil => exact everywhereAll_nil
  | text here later inductionHypothesis => exact everywhereAll_text.2 inductionHypothesis
  | element here below later belowHypothesis inductionHypothesis =>
    exact everywhereAll_element.2 ⟨⟨here, belowHypothesis⟩, inductionHypothesis⟩

end MadeOf

/-- Among some siblings no text is empty, and none stands next to another one. -/
structure TextsApart (siblings : List Node) : Prop where
  noneEmpty : .text "" ∉ siblings
  noneAdjacent : ∀ before first second after,
    siblings ≠ before ++ .text first :: .text second :: after

/-- Texts stand apart among the top-level nodes of a forest and among the children of
each of its elements. -/
def IsNormal (nodes : List Node) : Prop :=
  TextsApart nodes ∧ EverywhereAll (fun element => TextsApart element.children) nodes

/-- Nodes that do not begin with a text. -/
def BeginsWithoutText (nodes : List Node) : Prop :=
  ∀ content others, nodes ≠ .text content :: others

/-- Puts a text before other nodes. An empty one is dropped, and a text that follows is
joined to it. -/
def prependText (content : String) (nodes : List Node) : List Node :=
  if content = "" then nodes
  else
    match nodes with
    | .text next :: others => .text (content ++ next) :: others
    | nodes => .text content :: nodes

/-- Puts a node before nodes in which texts stand apart, so that they still do. -/
def prepend : Node → List Node → List Node
  | .text content, nodes => prependText content nodes
  | node, nodes => node :: nodes

mutual

/-- A node with the normal form of what is below it. -/
def normalize : Node → Node
  | .text content => .text content
  | .element tag attributes children => .element tag attributes (normalizeAll children)

/-- The normal form of a forest: at every level empty texts are dropped, and adjacent
texts are joined. -/
def normalizeAll : List Node → List Node
  | [] => []
  | node :: nodes => prepend (normalize node) (normalizeAll nodes)

end

@[simp] theorem normalizeAll_nil : normalizeAll [] = [] := by
  rw [normalizeAll]

@[simp] theorem normalizeAll_text {content : String} {nodes : List Node} :
    normalizeAll (.text content :: nodes) = prependText content (normalizeAll nodes) := by
  rw [normalizeAll, normalize, prepend]

@[simp] theorem normalizeAll_element {tag : String} {attributes : List Attribute}
    {children nodes : List Node} :
    normalizeAll (.element tag attributes children :: nodes) =
      .element tag attributes (normalizeAll children) :: normalizeAll nodes := by
  rw [normalizeAll, normalize, prepend]
  nofun

section Texts

variable {content : String} {nodes : List Node}

/-- The empty text disappears. -/
@[simp] theorem prependText_empty : prependText "" nodes = nodes :=
  if_pos rfl

/-- A text stays as it is in front of nodes that do not begin with one. -/
theorem prependText_of_beginsWithoutText (nonempty : content ≠ "")
    (without : BeginsWithoutText nodes) : prependText content nodes = .text content :: nodes := by
  rw [prependText, if_neg nonempty]
  exact without

/-- A text is joined to one that follows it. -/
theorem prependText_text {next : String} (nonempty : content ≠ "") :
    prependText content (.text next :: nodes) = .text (content ++ next) :: nodes := by
  rw [prependText, if_neg nonempty]

/-- Texts are joined in any order. -/
theorem prependText_prependText (without : BeginsWithoutText nodes) (first second : String) :
    prependText first (prependText second nodes) = prependText (first ++ second) nodes := by
  by_cases secondEmpty : second = ""
  · rw [secondEmpty, prependText_empty, String.append_empty]
  by_cases firstEmpty : first = ""
  · rw [firstEmpty, prependText_empty, String.empty_append]
  have nonempty : first ++ second ≠ "" := by
    intro empty
    exact firstEmpty (String.append_eq_empty_iff.1 empty).1
  rw [prependText_of_beginsWithoutText secondEmpty without, prependText_text firstEmpty,
    prependText_of_beginsWithoutText nonempty without]

/-- Texts stand apart behind a text when that one is not empty and no text follows it. -/
theorem textsApart_text_iff : TextsApart (.text content :: nodes) ↔
    content ≠ "" ∧ BeginsWithoutText nodes ∧ TextsApart nodes := by
  constructor
  · rintro ⟨noneEmpty, noneAdjacent⟩
    refine ⟨?_, ?_, ?_, ?_⟩
    · rintro rfl
      exact noneEmpty List.mem_cons_self
    · rintro next others rfl
      exact noneAdjacent [] content next others rfl
    · exact fun member => noneEmpty (List.mem_cons_of_mem _ member)
    · rintro before first second after rfl
      exact noneAdjacent (.text content :: before) first second after rfl
  · rintro ⟨nonempty, without, noneEmpty, noneAdjacent⟩
    refine ⟨?_, ?_⟩
    · rw [List.mem_cons, not_or]
      exact ⟨fun same => nonempty (Node.text.inj same).symm, noneEmpty⟩
    · intro before first second after same
      cases before with
      | nil => exact without second after (List.cons.inj same).2
      | cons node before => exact noneAdjacent before first second after (List.cons.inj same).2

/-- An element keeps texts apart. -/
theorem textsApart_element_iff {tag : String} {attributes : List Attribute}
    {children : List Node} : TextsApart (.element tag attributes children :: nodes) ↔
      TextsApart nodes := by
  constructor
  · rintro ⟨noneEmpty, noneAdjacent⟩
    refine ⟨fun member => noneEmpty (List.mem_cons_of_mem _ member), ?_⟩
    rintro before first second after rfl
    exact noneAdjacent (.element tag attributes children :: before) first second after rfl
  · rintro ⟨noneEmpty, noneAdjacent⟩
    refine ⟨?_, ?_⟩
    · rw [List.mem_cons, not_or]
      exact ⟨nofun, noneEmpty⟩
    · intro before first second after same
      cases before with
      | nil => cases (List.cons.inj same).1
      | cons node before => exact noneAdjacent before first second after (List.cons.inj same).2

/-- Texts stand apart in an empty list. -/
theorem textsApart_nil : TextsApart [] :=
  ⟨nofun, fun before _ _ _ same => by simp at same⟩

/-- Texts stand apart where there is only one of the nodes. -/
theorem TextsApart.singleton {node : Node} (apart : TextsApart nodes) (member : node ∈ nodes) :
    TextsApart [node] := by
  refine ⟨fun empty => apart.noneEmpty (List.mem_singleton.1 empty ▸ member), ?_⟩
  intro before first second after same
  have lengths := congrArg List.length same
  simp only [List.length_append, List.length_cons, List.length_nil] at lengths
  omega

/-- Each node of a normal forest is normal by itself. -/
theorem IsNormal.singleton {node : Node} (normal : IsNormal nodes) (member : node ∈ nodes) :
    IsNormal [node] :=
  ⟨normal.1.singleton member, normal.2.of_subset (by simpa using member)⟩

/-- Putting a text before a normal forest gives a normal forest. -/
theorem IsNormal.prependText (normal : IsNormal nodes) : IsNormal (prependText content nodes) := by
  by_cases empty : content = ""
  · rw [empty, prependText_empty]
    exact normal
  obtain ⟨apart, below⟩ := normal
  by_cases without : BeginsWithoutText nodes
  · rw [prependText_of_beginsWithoutText empty without]
    exact ⟨textsApart_text_iff.2 ⟨empty, without, apart⟩, everywhereAll_text.2 below⟩
  · obtain ⟨next, others, rfl⟩ : ∃ next others, nodes = .text next :: others := by
      simpa [BeginsWithoutText] using without
    obtain ⟨-, othersWithout, othersApart⟩ := textsApart_text_iff.1 apart
    have nonempty : content ++ next ≠ "" := by
      intro joined
      exact empty (String.append_eq_empty_iff.1 joined).1
    rw [prependText_text empty]
    exact ⟨textsApart_text_iff.2 ⟨nonempty, othersWithout, othersApart⟩,
      everywhereAll_text.2 (everywhereAll_text.1 below)⟩

end Texts

/-- The normal form of a forest is normal. -/
theorem isNormal_normalizeAll (nodes : List Node) : IsNormal (normalizeAll nodes) := by
  induction nodes using forestInduction with
  | nil =>
    rw [normalizeAll_nil]
    exact ⟨textsApart_nil, everywhereAll_nil⟩
  | text content nodes inductionHypothesis =>
    rw [normalizeAll_text]
    exact inductionHypothesis.prependText
  | element tag attributes children nodes childrenHypothesis inductionHypothesis =>
    rw [normalizeAll_element]
    exact ⟨textsApart_element_iff.2 inductionHypothesis.1,
      everywhereAll_element.2 ⟨childrenHypothesis, inductionHypothesis.2⟩⟩

/-- Exactly the normal forests are their own normal form. -/
theorem normalizeAll_eq_self_iff {nodes : List Node} : normalizeAll nodes = nodes ↔ IsNormal nodes := by
  constructor
  · intro same
    rw [← same]
    exact isNormal_normalizeAll nodes
  · rintro ⟨apart, below⟩
    induction nodes using forestInduction with
    | nil => exact normalizeAll_nil
    | text content nodes inductionHypothesis =>
      obtain ⟨nonempty, without, apart⟩ := textsApart_text_iff.1 apart
      rw [normalizeAll_text, inductionHypothesis apart (everywhereAll_text.1 below),
        prependText_of_beginsWithoutText nonempty without]
    | element tag attributes children nodes childrenHypothesis inductionHypothesis =>
      obtain ⟨⟨childrenApart, childrenBelow⟩, below⟩ := everywhereAll_element.1 below
      rw [normalizeAll_element, childrenHypothesis childrenApart childrenBelow,
        inductionHypothesis (textsApart_element_iff.1 apart) below]

end Templating.Node
