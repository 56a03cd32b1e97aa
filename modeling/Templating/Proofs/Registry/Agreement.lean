import Templating.Proofs.Markup.RoundTrip
import Templating.Proofs.Registry.Run

/-!
# Markup and trees agree

Content comes as markup or as a tree. Where the tree is read back from the markup that it
is written as, `Template.ofMarkup_toHtml_eq_compile` says that both make the same template
or the same error, and the same registry.
-/

namespace Templating

namespace Template

variable {config : Config} {nodes : List Node} {root : Node} {markup : String}

/-- Markup compiles as the root of the nodes that it is read as. -/
theorem ofMarkup_of_parse (parsed : Node.parse markup = .ok nodes) :
    ofMarkup config markup = compile config (rootOf nodes) := by
  rw [ofMarkup, parsed]
  rfl

/-- One node among blanks is the root. -/
theorem rootOf_of_filter (only : (nodes.filter fun node => !Renderer.isBlankText node) = [root]) :
    rootOf nodes = root := by
  rw [rootOf, only]

/-- Blanks do not matter in a template element. -/
theorem compile_template_filter (nodes : List Node) :
    compile config (.element Renderer.templateTag []
        (nodes.filter fun node => !Renderer.isBlankText node)) =
      compile config (.element Renderer.templateTag [] nodes) := by
  rw [compile, compile, Renderer.compileRoot_eq, Renderer.compileRoot_eq,
    Renderer.content_template, Renderer.content_template, Renderer.compileAll_filter]

/-- Unless there is one node among blanks, all nodes stand in a template element. -/
theorem compile_rootOf_of_filter
    (several : ∀ root, (nodes.filter fun node => !Renderer.isBlankText node) ≠ [root]) :
    compile config (rootOf nodes) = compile config (.element Renderer.templateTag [] nodes) := by
  rw [← compile_template_filter, rootOf]
  split
  · next root only => exact absurd only (several root)
  · rfl

end Template

namespace Registry

/-- Markup and the tree that it is read as are added alike. -/
theorem add_markup_eq_add_tree {registry : Registry} {name markup : String} {root : Node}
    (compiled : ∀ config, Template.ofMarkup config markup = Template.compile config root) :
    registry.add ⟨name, .markup markup⟩ = registry.add ⟨name, .tree root⟩ := by
  rw [add_eq, add_eq, Source.compile, Source.compile, compiled]

end Registry

namespace Template

/-- A tree and the markup that it is written as, if it is read back, compile to the same
template or fail with the same error. The tree is the only node that is not a text of
blanks, or a template element around all nodes; and the only node can be added to a
registry either way. -/
theorem ofMarkup_toHtml_eq_compile {nodes : List Node}
    (readBack : Node.parse (Node.toHtml nodes) = .ok nodes) :
    (∀ root, (nodes.filter fun node => !Renderer.isBlankText node) = [root] →
      (∀ config, ofMarkup config (Node.toHtml nodes) = compile config root) ∧
        ∀ (registry : Registry) (name : String),
          registry.answer ⟨name, .markup (Node.toHtml [root])⟩ =
              registry.answer ⟨name, .tree root⟩ ∧
            registry.after ⟨name, .markup (Node.toHtml [root])⟩ =
              registry.after ⟨name, .tree root⟩) ∧
    ((∀ root, (nodes.filter fun node => !Renderer.isBlankText node) ≠ [root]) →
      ∀ config, ofMarkup config (Node.toHtml nodes) =
        compile config (.element Renderer.templateTag [] nodes)) := by
  refine ⟨fun root only => ⟨fun config => ?_, fun registry name => ?_⟩, fun several config => ?_⟩
  · rw [ofMarkup_of_parse readBack, rootOf_of_filter only]
  · have kept : root ∈ nodes.filter fun node => !Renderer.isBlankText node := by
      rw [only]
      exact List.mem_singleton_self root
    obtain ⟨member, filled⟩ := List.mem_filter.1 kept
    have alone : Node.parse (Node.toHtml [root]) = .ok [root] :=
      Node.parse_toHtml_singleton readBack member
    have aloneOnly : ([root].filter fun node => !Renderer.isBlankText node) = [root] :=
      List.filter_cons_of_pos filled
    have compiled : ∀ config, ofMarkup config (Node.toHtml [root]) = compile config root := by
      intro config
      rw [ofMarkup_of_parse alone, rootOf_of_filter aloneOnly]
    have added : registry.add ⟨name, .markup (Node.toHtml [root])⟩ =
        registry.add ⟨name, .tree root⟩ := Registry.add_markup_eq_add_tree compiled
    rw [Registry.answer, Registry.answer, Registry.after, Registry.after, added]
    exact ⟨rfl, rfl⟩
  · rw [ofMarkup_of_parse readBack, compile_rootOf_of_filter several]

/-- A paragraph between line breaks, with a condition that cannot be read. -/
theorem ofMarkup_toHtml_eq_compile_paragraph :
    ofMarkup .standard (Node.toHtml
        [.text "\n", .element "p" [⟨"jt-if", "a ~ b"⟩] [.text "<"], .text "\n"]) =
      .error (.condition "p" (.unknownOperator "~" "a ~ b")) := by
  have readBack : Node.parse (Node.toHtml
      [.text "\n", .element "p" [⟨"jt-if", "a ~ b"⟩] [.text "<"], .text "\n"]) =
        .ok [.text "\n", .element "p" [⟨"jt-if", "a ~ b"⟩] [.text "<"], .text "\n"] := by
    rw [Node.parse_of_derives (Node.derives_toHtml (by decide))]
    rfl
  rw [((ofMarkup_toHtml_eq_compile readBack).1 _ rfl).1]
  rfl

end Template

end Templating
