import Templating.Proofs.Catalog
import Templating.Proofs.Renderer.Compilation
import Templating.Registry

/-!
# Runs of a registry

A run adds content after content, each under some name. `Registry.after` is the step of
such a run: a call that is refused leaves the registry as it was. What is found under a
name after a step, `Registry.template?_after`, says all about the step, because registries
with the same configuration and the same templates are equal. It follows that the first
content that compiles stays under its name, and that calls for other names do not matter.
-/

namespace Templating

/-- The content of a template: markup, or a tree. -/
inductive Source
  | markup (text : String)
  | tree (root : Node)
deriving DecidableEq

namespace Source

/-- The template of some content. -/
def compile (config : Config) : Source → Except TemplateError Template
  | .markup text => Template.ofMarkup config text
  | .tree root => Template.compile config root

/-- The template of some content, if it compiles. -/
def template? (config : Config) (source : Source) : Option Template :=
  (source.compile config).toOption

variable {config : Config} {source : Source}

theorem template?_eq_some_iff {template : Template} :
    source.template? config = some template ↔ source.compile config = .ok template := by
  rw [template?]
  cases source.compile config <;> simp [Except.toOption]

theorem template?_eq_none_iff :
    source.template? config = none ↔ ∃ error, source.compile config = .error error := by
  rw [template?]
  cases source.compile config <;> simp [Except.toOption]

/-- No content is refused for the name that it is given. -/
theorem compile_ne_nameTaken (name : String) :
    source.compile config ≠ .error (.nameTaken name) := by
  intro fails
  -- Whichever way the content comes, a tree is compiled in the end, if there is one.
  have treeFails : ∀ root, Template.compile config root ≠ .error (.nameTaken name) := by
    intro root refused
    rw [Template.compile, Renderer.compileRoot_eq, map_eq_error_iff] at refused
    obtain ⟨tag, fault, same⟩ := Renderer.exists_condition_of_compileAll refused
    cases same
  cases source with
  | tree root => exact treeFails root fails
  | markup text =>
    rw [compile, Template.ofMarkup, bind_eq_error_iff] at fails
    obtain parseFails | ⟨nodes, -, refused⟩ := fails
    · obtain ⟨error, -, same⟩ := mapError_eq_error_iff.1 parseFails
      cases same
    · exact treeFails _ refused

end Source

/-- A call that adds content under a name. -/
structure Registration where
  name : String
  source : Source
deriving DecidableEq

namespace Registration

/-- The template that a call has to offer for a name. -/
def offer? (config : Config) (name : String) (call : Registration) : Option Template :=
  if call.name = name then call.source.template? config else none

variable {config : Config} {name : String} {call : Registration} {template : Template}

theorem offer?_eq_some_iff : call.offer? config name = some template ↔
    call.name = name ∧ call.source.compile config = .ok template := by
  rw [offer?, Option.ite_none_right_eq_some, Source.template?_eq_some_iff]

theorem offer?_eq_none_iff : call.offer? config name = none ↔
    (call.name = name → ∃ error, call.source.compile config = .error error) := by
  rw [offer?, ite_eq_right_iff, Source.template?_eq_none_iff]

end Registration

namespace Registry

/-- The registry with some content added, by the operation for that kind of content. -/
def add (registry : Registry) (call : Registration) : Except TemplateError Registry :=
  match call.source with
  | .markup text => registry.addMarkup call.name text
  | .tree root => registry.addNode call.name root

/-- What a call answers. -/
def answer (registry : Registry) (call : Registration) : Except TemplateError Unit :=
  (registry.add call).map fun _ => ()

/-- The registry after a call, which is the same if the call fails. -/
def after (registry : Registry) (call : Registration) : Registry :=
  match registry.add call with
  | .ok next => next
  | .error _ => registry

/-- The registry after some calls. -/
def run (registry : Registry) (calls : List Registration) : Registry :=
  calls.foldl after registry

/-- Some calls, each with its answer. -/
def answered (registry : Registry) :
    List Registration → List (Registration × Except TemplateError Unit)
  | [] => []
  | call :: calls => (call, registry.answer call) :: (registry.after call).answered calls

variable {registry left right : Registry} {call : Registration} {calls : List Registration}
  {name : String}

/-- Registries with the same configuration are equal if the same is found in them. -/
theorem eq_of_template? (sameConfig : left.config = right.config)
    (sameTemplates : ∀ name, left.template? name = right.template? name) : left = right := by
  obtain ⟨templates, config⟩ := left
  cases sameConfig
  cases Catalog.eq_of_find? sameTemplates
  rfl

/-- There is nothing in a new registry. -/
@[simp] theorem template?_ofConfig {config : Config} : (ofConfig config).template? name = none :=
  Catalog.find?_empty

section Step

/-- Both kinds of content are put under their name in the same way. -/
theorem add_eq : registry.add call =
    registry.register call.name (call.source.compile registry.config) := by
  obtain ⟨name, source⟩ := call
  cases source <;> rfl

/-- A call for a name that is taken is refused, whatever its content is. -/
theorem add_of_taken {template : Template} (taken : registry.template? call.name = some template) :
    registry.add call = .error (.nameTaken call.name) := by
  rw [add_eq, register, taken]

/-- A call for a name that is free puts the template there, or fails as its content does. -/
theorem add_of_free (free : registry.template? call.name = none) :
    registry.add call = (call.source.compile registry.config).map fun template =>
      { registry with templates := registry.templates.insert call.name template } := by
  rw [add_eq, register, free]

theorem answer_of_taken {template : Template}
    (taken : registry.template? call.name = some template) :
    registry.answer call = .error (.nameTaken call.name) := by
  rw [answer, add_of_taken taken]
  rfl

theorem answer_of_free (free : registry.template? call.name = none) :
    registry.answer call = (call.source.compile registry.config).map fun _ => () := by
  rw [answer, add_of_free free]
  cases call.source.compile registry.config <;> rfl

/-- A call is refused for a name exactly when that is its own name and it is taken. -/
theorem answer_eq_nameTaken_iff {taken : String} :
    registry.answer call = .error (.nameTaken taken) ↔
      taken = call.name ∧ registry.template? call.name ≠ none := by
  cases found : registry.template? call.name with
  | some template => simp [answer_of_taken found, eq_comm]
  | none =>
    rw [answer_of_free found, map_eq_error_iff]
    simp [Source.compile_ne_nameTaken]

/-- A call that fails changes nothing. -/
theorem after_of_error {error : TemplateError} (fails : registry.answer call = .error error) :
    registry.after call = registry := by
  rw [answer, map_eq_error_iff] at fails
  rw [after, fails]

/-- A call leaves the configuration alone. -/
@[simp] theorem config_after : (registry.after call).config = registry.config := by
  cases found : registry.template? call.name with
  | some template => rw [after_of_error (answer_of_taken found)]
  | none =>
    rw [after, add_of_free found]
    cases call.source.compile registry.config <;> rfl

/-- After a call there is what was there before, or else what the call offers. -/
theorem template?_after : (registry.after call).template? name =
    (registry.template? name).or (call.offer? registry.config name) := by
  cases found : registry.template? call.name with
  | some template =>
    rw [after_of_error (answer_of_taken found), Registration.offer?]
    by_cases same : call.name = name
    · subst same
      rw [found, Option.some_or]
    · rw [if_neg same, Option.or_none]
  | none =>
    rw [after, add_of_free found, Registration.offer?, Source.template?]
    cases call.source.compile registry.config with
    | error error => simp [Except.map, Except.toOption]
    | ok template =>
      change (registry.templates.insert call.name template).find? name = _
      rw [Catalog.find?_insert]
      by_cases same : call.name = name
      · subst same
        rw [if_pos rfl, if_pos rfl, found]
        rfl
      · rw [if_neg (Ne.symm same), if_neg same, Option.or_none]
        rfl

/-- A name is taken after a call if it was before, or if the call has taken it. -/
theorem template?_after_ne_none_iff : (registry.after call).template? name ≠ none ↔
    registry.template? name ≠ none ∨ registry.answer call = .ok () ∧ call.name = name := by
  rw [template?_after]
  cases found : registry.template? name with
  | some template => simp
  | none =>
    rw [Option.none_or, Registration.offer?]
    by_cases same : call.name = name
    · subst same
      rw [if_pos rfl, answer_of_free found, Source.template?]
      cases call.source.compile registry.config with
      | error error => simp [Except.toOption, Except.map]
      | ok template => simp [Except.toOption, Except.map]
    · simp [same]

end Step

section Run

theorem run_cons : registry.run (call :: calls) = (registry.after call).run calls :=
  rfl

/-- A run leaves the configuration alone. -/
@[simp] theorem config_run : (registry.run calls).config = registry.config := by
  induction calls generalizing registry with
  | nil => rfl
  | cons call calls inductionHypothesis => rw [run_cons, inductionHypothesis, config_after]

/-- After a run there is what was there before, or else the first that is offered. -/
theorem template?_run : (registry.run calls).template? name =
    (registry.template? name).or (calls.findSome? (Registration.offer? registry.config name)) := by
  induction calls generalizing registry with
  | nil => exact Option.or_none.symm
  | cons call calls inductionHypothesis =>
    rw [run_cons, inductionHypothesis, config_after, template?_after, Option.or_assoc,
      List.findSome?_cons]
    cases call.offer? registry.config name <;> rfl

/-- A name is taken after a run if it was before, or if a call of the run has taken it. -/
theorem template?_run_ne_none_iff : (registry.run calls).template? name ≠ none ↔
    registry.template? name ≠ none ∨
      ∃ call, (call, .ok ()) ∈ registry.answered calls ∧ call.name = name := by
  induction calls generalizing registry with
  | nil => simp [run, answered]
  | cons call calls inductionHypothesis =>
    rw [run_cons, inductionHypothesis, template?_after_ne_none_iff, answered, or_assoc]
    refine or_congr Iff.rfl ?_
    constructor
    · rintro (⟨ok, same⟩ | ⟨other, member, same⟩)
      · exact ⟨call, ok ▸ List.mem_cons_self, same⟩
      · exact ⟨other, List.mem_cons_of_mem _ member, same⟩
    · rintro ⟨other, member, same⟩
      obtain head | member := List.mem_cons.1 member
      · obtain ⟨rfl, ok⟩ := Prod.mk.inj head
        exact .inl ⟨ok.symm, same⟩
      · exact .inr ⟨other, member, same⟩

/-- Every call is answered. -/
theorem map_fst_answered : (registry.answered calls).map Prod.fst = calls := by
  induction calls generalizing registry with
  | nil => rfl
  | cons call calls inductionHypothesis => rw [answered, List.map_cons, inductionHypothesis]

/-- A call is answered by the registry that the calls before it have led to. -/
theorem exists_run_of_answered {answer : Except TemplateError Unit}
    {earlier later : List (Registration × Except TemplateError Unit)}
    (split : registry.answered calls = earlier ++ (call, answer) :: later) :
    ∃ before, registry.answered before = earlier ∧ (registry.run before).answer call = answer := by
  induction earlier generalizing registry calls with
  | nil =>
    cases calls with
    | nil => cases split
    | cons first calls =>
      obtain ⟨head, -⟩ := List.cons.inj split
      obtain ⟨rfl, same⟩ := Prod.mk.inj head
      exact ⟨[], rfl, same⟩
  | cons pair earlier inductionHypothesis =>
    cases calls with
    | nil => cases split
    | cons first calls =>
      obtain ⟨rfl, rest⟩ := List.cons.inj split
      obtain ⟨before, rfl, same⟩ := inductionHypothesis rest
      exact ⟨first :: before, rfl, same⟩

/-- Calls for one name are answered alike if the same is found under that name. -/
theorem answered_congr (sameConfig : left.config = right.config)
    (found : left.template? name = right.template? name)
    (named : ∀ call ∈ calls, call.name = name) : left.answered calls = right.answered calls := by
  induction calls generalizing left right with
  | nil => rfl
  | cons call calls inductionHypothesis =>
    obtain ⟨rfl, laterNamed⟩ := List.forall_mem_cons.1 named
    have sameAnswer : left.answer call = right.answer call := by
      cases foundRight : right.template? call.name with
      | some template =>
        rw [answer_of_taken (found.trans foundRight), answer_of_taken foundRight]
      | none =>
        rw [answer_of_free (found.trans foundRight), answer_of_free foundRight, sameConfig]
    have foundAfter :
        (left.after call).template? call.name = (right.after call).template? call.name := by
      rw [template?_after, template?_after, found, sameConfig]
    have sameAfter : (left.after call).config = (right.after call).config := by
      rw [config_after, config_after, sameConfig]
    rw [answered, answered, sameAnswer, inductionHypothesis sameAfter foundAfter laterNamed]

/-- The calls for a name are answered as if there were no others. -/
theorem answered_filter :
    (registry.answered calls).filter (fun pair => pair.1.name = name) =
      registry.answered (calls.filter fun call => call.name = name) := by
  induction calls generalizing registry with
  | nil => rfl
  | cons call calls inductionHypothesis =>
    rw [answered]
    by_cases same : call.name = name
    · rw [List.filter_cons_of_pos (by simpa using same),
        List.filter_cons_of_pos (by simpa using same), answered, inductionHypothesis]
    · rw [List.filter_cons_of_neg (by simpa using same),
        List.filter_cons_of_neg (by simpa using same), inductionHypothesis]
      have notOffered : call.offer? registry.config name = none := if_neg same
      have found : (registry.after call).template? name = registry.template? name := by
        rw [template?_after, notOffered, Option.or_none]
      refine answered_congr config_after found fun other member => ?_
      simpa using (List.mem_filter.1 member).2

/-- The calls for a name offer what all calls offer for it. -/
theorem findSome?_offer?_filter {config : Config} :
    (calls.filter fun call => call.name = name).findSome? (Registration.offer? config name) =
      calls.findSome? (Registration.offer? config name) := by
  induction calls with
  | nil => rfl
  | cons call calls inductionHypothesis =>
    by_cases same : call.name = name
    · rw [List.filter_cons_of_pos (by simpa using same), List.findSome?_cons,
        List.findSome?_cons, inductionHypothesis]
    · have notOffered : call.offer? config name = none := if_neg same
      rw [List.filter_cons_of_neg (by simpa using same), List.findSome?_cons, notOffered,
        inductionHypothesis]

/-- Runs lead to the same registry if they have the same calls for each name, in the same
order. -/
theorem run_eq_of_filter {others : List Registration}
    (reordered : ∀ name, (calls.filter fun call => call.name = name) =
      others.filter fun call => call.name = name) : registry.run calls = registry.run others := by
  refine eq_of_template? (config_run.trans config_run.symm) fun name => ?_
  rw [template?_run, template?_run, ← findSome?_offer?_filter, reordered, findSome?_offer?_filter]

end Run

section Lookup

/-- A name that is asked for in vain has no template. -/
theorem render_eq_unknownName_iff {data : Value} :
    registry.render name data = .error (.unknownName name) ↔ registry.template? name = none := by
  rw [render]
  cases registry.template? name <;> simp

/-- Nothing is read under a name without a template. -/
theorem paths_of_free (free : registry.template? name = none) : registry.paths name = [] := by
  rw [paths, free]

end Lookup

/-- In a run, the first content that compiles takes its name for good. A call is refused
for its name exactly when an earlier one has succeeded with it, and otherwise answers as
its content does; a call that fails changes nothing; and calls for different names can be
made in any order. -/
theorem first_success_wins (config : Config) (calls : List Registration) :
    ((ofConfig config).answered calls).map Prod.fst = calls ∧
    (∀ earlier call answer later,
      (ofConfig config).answered calls = earlier ++ (call, answer) :: later →
        (∀ taken, answer = .error (.nameTaken taken) ↔
          taken = call.name ∧ ∃ other, (other, .ok ()) ∈ earlier ∧ other.name = call.name) ∧
        ((¬∃ other, (other, .ok ()) ∈ earlier ∧ other.name = call.name) →
          answer = (call.source.compile config).map fun _ => ())) ∧
    (∀ name template, ((ofConfig config).run calls).template? name = some template ↔
      ∃ earlier call later, calls = earlier ++ call :: later ∧
        (call.name = name ∧ call.source.compile config = .ok template) ∧
        ∀ other ∈ earlier, other.name = name → ∃ error, other.source.compile config = .error error) ∧
    (∀ name, (((ofConfig config).run calls).template? name = none ↔
        ∀ call ∈ calls, call.name = name → ∃ error, call.source.compile config = .error error) ∧
      (((ofConfig config).run calls).template? name = none →
        ((ofConfig config).run calls).paths name = []) ∧
      ∀ data, ((ofConfig config).run calls).render name data = .error (.unknownName name) ↔
        ((ofConfig config).run calls).template? name = none) ∧
    ((ofConfig config).run calls).config = config ∧
    (∀ call error, ((ofConfig config).run calls).answer call = .error error →
      ((ofConfig config).run calls).after call = (ofConfig config).run calls) ∧
    ∀ others : List Registration,
      (∀ name, (calls.filter fun call => call.name = name) =
        others.filter fun call => call.name = name) →
      (ofConfig config).run calls = (ofConfig config).run others ∧
        ∀ name, (((ofConfig config).answered calls).filter fun pair => pair.1.name = name) =
          ((ofConfig config).answered others).filter fun pair => pair.1.name = name := by
  have found : ∀ name, ((ofConfig config).run calls).template? name =
      calls.findSome? (Registration.offer? config name) := by
    intro name
    rw [template?_run, template?_ofConfig, Option.none_or]
    rfl
  refine ⟨map_fst_answered, ?answers, ?first, ?none, config_run, fun _ _ => after_of_error, ?order⟩
  case answers =>
    intro earlier call answer later split
    obtain ⟨before, rfl, rfl⟩ := exists_run_of_answered split
    have taken : ((ofConfig config).run before).template? call.name ≠ none ↔
        ∃ other, (other, .ok ()) ∈ (ofConfig config).answered before ∧ other.name = call.name := by
      rw [template?_run_ne_none_iff, template?_ofConfig]
      simp
    refine ⟨fun name => ?_, fun free => ?_⟩
    · rw [answer_eq_nameTaken_iff, taken]
    · rw [answer_of_free (Classical.not_not.1 (mt taken.1 free)), config_run]
      rfl
  case first =>
    intro name template
    simp only [found, List.findSome?_eq_some_iff, Registration.offer?_eq_some_iff,
      Registration.offer?_eq_none_iff]
  case none =>
    intro name
    refine ⟨?_, paths_of_free, fun data => render_eq_unknownName_iff⟩
    simp only [found, List.findSome?_eq_none_iff, Registration.offer?_eq_none_iff]
  case order =>
    intro others reordered
    refine ⟨run_eq_of_filter reordered, fun name => ?_⟩
    rw [answered_filter, answered_filter, reordered]

/-- A run that gives one name wrong content, then right content, and then content that is
not looked at. -/
def sampleRun : List Registration :=
  [⟨"card", .tree (.element "p" [⟨"jt-if", "a"⟩] [])⟩, ⟨"page", .tree (.text "y")⟩,
    ⟨"card", .tree (.text "x")⟩, ⟨"card", .markup "<p"⟩]

/-- The wrong content leaves the name free, and the right content keeps it. -/
theorem first_success_wins_over_markup :
    ((ofConfig .standard).run sampleRun).template? "card" = some ⟨[.text "x"], .empty⟩ ∧
      ((ofConfig .standard).run (sampleRun.take 3)).answer ⟨"card", .markup "<p"⟩ =
        .error (.nameTaken "card") := by
  obtain ⟨-, answers, first, -⟩ := first_success_wins .standard sampleRun
  constructor
  · refine (first "card" _).2 ⟨[_, _], _, [_], rfl, ⟨rfl, rfl⟩, ?_⟩
    have wrong : ∃ error, Source.compile .standard
        (.tree (.element "p" [⟨"jt-if", "a"⟩] [])) = .error error := ⟨_, rfl⟩
    exact List.forall_mem_cons.2
      ⟨fun _ => wrong, List.forall_mem_singleton.2 fun same => absurd same (by decide)⟩
  · have taken : (⟨"card", .tree (.text "x")⟩, .ok ()) ∈
        ((ofConfig .standard).answered sampleRun).take 3 :=
      .tail _ (.tail _ (.head _))
    exact ((answers (((ofConfig .standard).answered sampleRun).take 3) _ _ [] rfl).1 "card").2
      ⟨rfl, _, taken, rfl⟩

end Registry

end Templating
