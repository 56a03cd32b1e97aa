import Templating.Proofs.Directive.Classify
import Templating.Proofs.Registry.Run
import Templating.Proofs.Renderer.Arrangement

/-!
# Other leads

The lead of directives is no more than spelling. `Node.respell` gives every directive of a tree
another lead. A tree in which nothing else begins with that lead compiles after that, with the other
lead, to what it compiled to before: `Renderer.compileRoot_respell`. The leads may be any two texts,
also if one of them is empty or begins with the other one. `Registry.run_respellTrees` carries this
to registries: with the other lead, one answers, shows and reads for respelled trees what the first
one does for the trees themselves.
-/

namespace Templating

/-- A name is some lead and a word behind it. -/
def IsLed (lead name : String) : Prop :=
  ∃ word, word ≠ "" ∧ name = lead ++ word

/-- The name with another lead, if it has the old one. The lead alone is kept. -/
def respellName (lead other name : String) : String :=
  match Text.after? lead.toList name.toList with
  | none => name
  | some [] => name
  | some (c :: rest) => other ++ String.ofList (c :: rest)

/-- Nothing but what has the old lead begins with the other one. -/
def Respellable (lead other name : String) : Prop :=
  IsLed other name → IsLed lead name

section Names

variable {lead other name word : String}

/-- A name is not led if it begins otherwise, or is the lead alone. -/
theorem not_isLed_iff : ¬ IsLed lead name ↔
    Text.after? lead.toList name.toList = none ∨ Text.after? lead.toList name.toList = some [] := by
  constructor
  · intro notLed
    cases found : Text.after? lead.toList name.toList with
    | none => exact .inl rfl
    | some rest =>
      by_contra nonempty
      refine notLed ⟨String.ofList rest, by simpa using nonempty, String.toList_inj.1 ?_⟩
      simpa using Text.after?_eq_some_iff.1 found
  · rintro notFound ⟨word, nonempty, rfl⟩
    have found : Text.after? lead.toList (lead ++ word).toList = some word.toList :=
      Text.after?_eq_some_iff.2 String.toList_append
    rw [found] at notFound
    simp [nonempty] at notFound

instance (lead name : String) : Decidable (IsLed lead name) :=
  decidable_of_iff _ (not_isLed_iff.not.symm.trans not_not)

instance (lead other name : String) : Decidable (Respellable lead other name) :=
  inferInstanceAs (Decidable (IsLed other name → IsLed lead name))

theorem respellName_append (nonempty : word ≠ "") :
    respellName lead other (lead ++ word) = other ++ word := by
  obtain ⟨c, rest, parts⟩ := List.exists_cons_of_ne_nil (mt String.toList_eq_nil_iff.1 nonempty)
  have found : Text.after? lead.toList (lead ++ word).toList = some (c :: rest) :=
    Text.after?_eq_some_iff.2 (by simp [parts])
  simp only [respellName, found]
  rw [← parts, String.ofList_toList]

/-- A name without the lead is kept. -/
theorem respellName_of_not_isLed (notLed : ¬ IsLed lead name) :
    respellName lead other name = name := by
  obtain found | found := not_isLed_iff.1 notLed
  · simp only [respellName, found]
  · simp only [respellName, found]

end Names

namespace Directives

/-- The same words behind another lead. -/
def withLead (directives : Directives) (lead : String) : Directives :=
  { directives with lead }

variable {directives : Directives} {lead name word : String}

/-- A word behind the lead is the directive of that word, whatever the lead is. -/
theorem classify?_withLead_append (nonempty : word ≠ "") :
    (directives.withLead lead).classify? (lead ++ word) =
      some (directives.directiveOf word.toList) :=
  classify?_eq_some_iff.2
    ⟨word.toList, String.toList_append, mt String.toList_eq_nil_iff.1 nonempty, rfl⟩

/-- A name without the lead is no directive. -/
theorem classify?_of_not_isLed (notLed : ¬ IsLed directives.lead name) :
    directives.classify? name = none := by
  obtain found | found := not_isLed_iff.1 notLed
  · rw [classify?, found]
  · rw [classify?, found]

/-- A name that is no directive is kept. -/
theorem respellName_of_classify?_eq_none (plain : directives.classify? name = none) :
    respellName directives.lead lead name = name := by
  apply respellName_of_not_isLed
  rintro ⟨word, nonempty, rfl⟩
  cases plain.symm.trans (classify?_withLead_append nonempty)

/-- A respelled name is the directive that it was, or none as before. -/
theorem classify?_respellName (respellable : Respellable directives.lead lead name) :
    (directives.withLead lead).classify? (respellName directives.lead lead name) =
      directives.classify? name := by
  by_cases isLed : IsLed directives.lead name
  · obtain ⟨word, nonempty, rfl⟩ := isLed
    rw [respellName_append nonempty, classify?_withLead_append nonempty]
    exact (classify?_withLead_append nonempty).symm
  · have notLed : ¬ IsLed (directives.withLead lead).lead name := mt respellable isLed
    rw [respellName_of_not_isLed isLed, classify?_of_not_isLed isLed, classify?_of_not_isLed notLed]

end Directives

/-- The attribute with its name respelled. -/
def Attribute.respell (lead other : String) (entry : Attribute) : Attribute :=
  { entry with name := respellName lead other entry.name }

namespace Node

mutual

/-- A node with the names of all attributes in it respelled. -/
def respell (lead other : String) : Node → Node
  | .text content => .text content
  | .element tag attributes children =>
    .element tag (attributes.map (Attribute.respell lead other)) (respellAll lead other children)

/-- A forest with the names of all attributes in it respelled. -/
def respellAll (lead other : String) : List Node → List Node
  | [] => []
  | node :: nodes => respell lead other node :: respellAll lead other nodes

end

/-- All names of attributes in a forest are respellable. -/
def AllRespellable (lead other : String) (nodes : List Node) : Prop :=
  EverywhereAll
    (fun element => ∀ entry ∈ element.attributes, Respellable lead other entry.name) nodes

instance (lead other : String) : DecidablePred (AllRespellable lead other) := fun nodes =>
  inferInstanceAs (Decidable (EverywhereAll
    (fun element => ∀ entry ∈ element.attributes, Respellable lead other entry.name) nodes))

end Node

namespace Plan

variable {directives : Directives} {lead tag : String} {entry : Attribute}
  {attributes : List Attribute}

/-- A respelled attribute adds to a plan what it added before. -/
theorem take_respell (respellable : Respellable directives.lead lead entry.name) (plan : Plan) :
    plan.take (directives.withLead lead) (entry.respell directives.lead lead) =
      plan.take directives entry := by
  have same := Directives.classify?_respellName respellable
  rw [take, take, Attribute.respell, same]
  cases classified : directives.classify? entry.name with
  | none =>
    -- A plain attribute is added as it is, with its name.
    rw [Directives.respellName_of_classify?_eq_none classified]
  | some directive => cases directive <;> rfl

/-- Respelled attributes make the same plan, or fail for the same condition. -/
theorem compile_respell
    (respellable : ∀ entry ∈ attributes, Respellable directives.lead lead entry.name) :
    compile (directives.withLead lead) tag
        (attributes.map (Attribute.respell directives.lead lead)) =
      compile directives tag attributes := by
  rw [compile_eq_foldlM, compile_eq_foldlM]
  generalize bare tag = plan
  induction attributes generalizing plan with
  | nil => rfl
  | cons entry attributes inductionHypothesis =>
    obtain ⟨here, later⟩ := List.forall_mem_cons.1 respellable
    rw [List.map_cons, List.foldlM_cons, List.foldlM_cons, take_respell here]
    exact congrArg _ (funext fun next => inductionHypothesis later next)

end Plan

namespace Renderer

variable {directives : Directives} {lead : String} {nodes : List Node} {root : Node}

/-- Respelled forests compile alike. -/
theorem compileAll_respellAll (respellable : Node.AllRespellable directives.lead lead nodes) :
    compileAll (directives.withLead lead) (Node.respellAll directives.lead lead nodes) =
      compileAll directives nodes := by
  induction nodes using Node.forestInduction with
  | nil => rfl
  | text content nodes inductionHypothesis =>
    rw [Node.respellAll, Node.respell, compileAll, compileAll, compile, compile,
      inductionHypothesis (Node.everywhereAll_text.1 respellable)]
  | element tag attributes children nodes childrenHypothesis inductionHypothesis =>
    obtain ⟨⟨here, below⟩, later⟩ := Node.everywhereAll_element.1 respellable
    rw [Node.respellAll, Node.respell, compileAll, compileAll, compile, compile,
      Plan.compile_respell here, childrenHypothesis below, inductionHypothesis later]

/-- A respelled root stands for the respelled nodes. -/
theorem content_respell (lead other : String) (root : Node) :
    content (root.respell lead other) = Node.respellAll lead other (content root) := by
  cases root with
  | text content => rfl
  | element tag attributes children =>
    simp only [Node.respell, content]
    split <;> rfl

/-- The names in the nodes that a root stands for are among those in the root. -/
theorem allRespellable_content {other : String}
    (respellable : Node.AllRespellable lead other [root]) :
    Node.AllRespellable lead other (content root) := by
  cases root with
  | text content => exact respellable
  | element tag attributes children =>
    simp only [content]
    split
    · exact (Node.everywhereAll_element.1 respellable).1.2
    · exact respellable

/-- A respelled root compiles to the same renderers, or fails with the same error. -/
theorem compileRoot_respell (respellable : Node.AllRespellable directives.lead lead [root]) :
    compileRoot (directives.withLead lead) (root.respell directives.lead lead) =
      compileRoot directives root := by
  rw [compileRoot_eq, compileRoot_eq, content_respell,
    compileAll_respellAll (allRespellable_content respellable)]

end Renderer

/-- The configuration with another lead for directives. -/
def Config.withLead (config : Config) (lead : String) : Config :=
  { config with directives := config.directives.withLead lead }

/-- A respelled tree makes the same template. -/
theorem Template.compile_respell {config : Config} {lead : String} {root : Node}
    (respellable : Node.AllRespellable config.directives.lead lead [root]) :
    compile (config.withLead lead) (root.respell config.directives.lead lead) =
      compile config root :=
  congrArg (Except.map fun renderers => (⟨renderers, config.missing⟩ : Template))
    (Renderer.compileRoot_respell respellable)

namespace Registry

/-- The registry with the same templates, and another lead for what is added to it. -/
def withLead (registry : Registry) (lead : String) : Registry :=
  { registry with config := registry.config.withLead lead }

/-- The calls that add trees under their names. -/
def treeCalls (trees : List (String × Node)) : List Registration :=
  trees.map fun tree => ⟨tree.1, .tree tree.2⟩

/-- The trees under the same names, respelled. -/
def respellTrees (lead other : String) (trees : List (String × Node)) : List (String × Node) :=
  trees.map fun tree => (tree.1, tree.2.respell lead other)

variable {registry : Registry} {lead name : String} {root : Node} {trees : List (String × Node)}

section Step

variable (respellable : Node.AllRespellable registry.config.directives.lead lead [root])
include respellable

/-- A respelled tree is added to the registry with the other lead as the tree is to the first
registry, or is refused with the same error. -/
theorem add_respell :
    (registry.withLead lead).add
        ⟨name, .tree (root.respell registry.config.directives.lead lead)⟩ =
      (registry.add ⟨name, .tree root⟩).map fun next => next.withLead lead := by
  have same : Source.compile (registry.withLead lead).config
        (.tree (root.respell registry.config.directives.lead lead)) =
      Source.compile registry.config (.tree root) := Template.compile_respell respellable
  have sameFound : (registry.withLead lead).template? name = registry.template? name := rfl
  rw [add_eq, add_eq, register, register, same, sameFound]
  cases registry.template? name with
  | some template => rfl
  | none => cases Source.compile registry.config (.tree root) <;> rfl

theorem answer_respell :
    (registry.withLead lead).answer
        ⟨name, .tree (root.respell registry.config.directives.lead lead)⟩ =
      registry.answer ⟨name, .tree root⟩ := by
  rw [answer, answer, add_respell respellable]
  cases registry.add ⟨name, .tree root⟩ <;> rfl

theorem after_respell :
    (registry.withLead lead).after
        ⟨name, .tree (root.respell registry.config.directives.lead lead)⟩ =
      (registry.after ⟨name, .tree root⟩).withLead lead := by
  rw [after, after, add_respell respellable]
  cases registry.add ⟨name, .tree root⟩ <;> rfl

end Step

/-- A run with respelled trees answers as the run with the trees themselves does, and the registry
that it leads to has the same templates. -/
theorem run_respellTrees (respellable : ∀ tree ∈ trees,
      Node.AllRespellable registry.config.directives.lead lead [tree.2]) :
    ((registry.withLead lead).answered
        (treeCalls (respellTrees registry.config.directives.lead lead trees))).map Prod.snd =
      (registry.answered (treeCalls trees)).map Prod.snd ∧
    (registry.withLead lead).run
        (treeCalls (respellTrees registry.config.directives.lead lead trees)) =
      (registry.run (treeCalls trees)).withLead lead := by
  induction trees generalizing registry with
  | nil => exact ⟨rfl, rfl⟩
  | cons tree trees inductionHypothesis =>
    obtain ⟨name, root⟩ := tree
    obtain ⟨here, later⟩ := List.forall_mem_cons.1 respellable
    -- The first call leaves the lead alone, so the others are respelled in the same way.
    have laterThere : ∀ tree ∈ trees, Node.AllRespellable
        (registry.after ⟨name, .tree root⟩).config.directives.lead lead [tree.2] := by
      simpa only [config_after] using later
    obtain ⟨sameAnswers, sameRun⟩ := inductionHypothesis laterThere
    simp only [config_after, ← after_respell here] at sameAnswers sameRun
    constructor
    · exact List.cons_eq_cons.2 ⟨answer_respell here, sameAnswers⟩
    · exact sameRun

/-- The lead of directives is spelling and no more. With any other lead, trees whose directives are
respelled compile to the same renderers, or fail with the same error, if nothing else in them begins
with that lead. So a registry with the other lead answers for the respelled trees as the one with
the first lead does for the trees themselves, and after that it puts out the same for all data and
reads the same paths. -/
theorem lead_is_spelling (directives : Directives) (lead : String) :
    (∀ root, Node.AllRespellable directives.lead lead [root] →
      Renderer.compileRoot (directives.withLead lead) (root.respell directives.lead lead) =
        Renderer.compileRoot directives root) ∧
    ∀ missing trees, (∀ tree ∈ trees, Node.AllRespellable directives.lead lead [tree.2]) →
      let calls := treeCalls trees
      let respelledCalls := treeCalls (respellTrees directives.lead lead trees)
      let registry := ofConfig ⟨directives, missing⟩
      let other := ofConfig ⟨directives.withLead lead, missing⟩
      (other.answered respelledCalls).map Prod.snd = (registry.answered calls).map Prod.snd ∧
      ∀ name, (other.run respelledCalls).paths name = (registry.run calls).paths name ∧
        ∀ data, (other.run respelledCalls).render name data =
          (registry.run calls).render name data := by
  refine ⟨fun root respellable => Renderer.compileRoot_respell respellable, ?_⟩
  intro missing trees respellable calls respelledCalls registry other
  have registryRespellable : ∀ tree ∈ trees,
      Node.AllRespellable registry.config.directives.lead lead [tree.2] := respellable
  obtain ⟨sameAnswers, sameRun⟩ := run_respellTrees registryRespellable
  have sameOther : other.run respelledCalls = (registry.run calls).withLead lead := sameRun
  refine ⟨sameAnswers, fun name => ?_⟩
  rw [sameOther]
  exact ⟨rfl, fun data => rfl⟩

/-- The new lead begins with the usual one. The usual lead alone is no directive and stays as it is,
and a binding that begins with both leads gets the new one in place of the usual one. A list is put
out alike. -/
theorem lead_is_spelling_overlapping :
    let card : Node := .element "li" [⟨"jt-foreach", "items"⟩, ⟨"jt-", "a"⟩, ⟨"jt-x-y", "."⟩,
      ⟨"title", "b"⟩] []
    let respelled : Node := .element "li" [⟨"jt-x-foreach", "items"⟩, ⟨"jt-", "a"⟩,
      ⟨"jt-x-x-y", "."⟩, ⟨"title", "b"⟩] []
    let data : Value := .object [("items", .array [.text "v", .text "w"])]
    Node.AllRespellable "jt-" "jt-x-" [card] ∧ card.respell "jt-" "jt-x-" = respelled ∧
    Renderer.compileRoot (Directives.standard.withLead "jt-x-") respelled =
      Renderer.compileRoot .standard card ∧
    ((ofConfig ⟨Directives.standard.withLead "jt-x-", .empty⟩).run
        [⟨"card", .tree respelled⟩]).render "card" data =
      .ok [.element "li" [⟨"jt-", "a"⟩, ⟨"title", "b"⟩, ⟨"x-y", "v"⟩] [],
        .element "li" [⟨"jt-", "a"⟩, ⟨"title", "b"⟩, ⟨"x-y", "w"⟩] []] := by
  intro card respelled data
  have respellable : Node.AllRespellable "jt-" "jt-x-" [card] := by decide
  have isRespelled : card.respell "jt-" "jt-x-" = respelled := by decide
  obtain ⟨compiled, runs⟩ := lead_is_spelling .standard "jt-x-"
  have sameRoot := compiled card respellable
  obtain ⟨-, shown⟩ := runs .empty [("card", card)] (List.forall_mem_singleton.2 respellable)
  refine ⟨respellable, isRespelled, ?_, ?_⟩
  · rw [← isRespelled]
    exact sameRoot
  · rw [← isRespelled]
    exact ((shown "card").2 data).trans rfl

end Registry

end Templating
