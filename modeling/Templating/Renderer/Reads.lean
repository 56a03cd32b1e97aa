import Templating.Renderer.Basic

/-!
# What renderers read

`Renderer.reads` lists the paths that a renderer reads, each with what it is used
for, in the order in which they stand in the template. Paths below a loop are
relative to its items.
-/

namespace Templating

/-- What a path is used for. -/
inductive Usage
  | loop
  | text
  | binding
  | condition
deriving DecidableEq

namespace Usage

/-- The place of a use among all of them. -/
def rank : Usage → Nat
  | .loop => 0
  | .text => 1
  | .binding => 2
  | .condition => 3

end Usage

/-- A path as it is written, and what it is used for. -/
structure Read where
  path : String
  usage : Usage
deriving DecidableEq

namespace Read

/-- Reads in the order of their paths, and of their uses for the same path. -/
def precedes (left right : Read) : Bool :=
  if left.path = right.path then left.usage.rank ≤ right.usage.rank
  else left.path < right.path

/-- Every element once, where it stands first. -/
def distinct : List Read → List Read
  | [] => []
  | read :: reads => read :: (distinct reads).filter fun other => other ≠ read

end Read

namespace Condition

/-- The paths that a condition compares. -/
def paths (condition : Condition) : List Path :=
  match condition.right with
  | .literal _ => [condition.left]
  | .path right => [condition.left, right]

end Condition

namespace Plan

/-- Reads of some paths for one use. -/
def readsOf (usage : Usage) (paths : List Path) : List Read :=
  paths.map fun path => ⟨path.raw, usage⟩

/-- What an element reads itself: its condition, its loop, its bindings and its
text, in this order. -/
def reads (plan : Plan) : List Read :=
  readsOf .condition (plan.condition.toList.flatMap Condition.paths) ++
    readsOf .loop plan.loop.toList ++
    readsOf .binding (plan.bindings.flatMap fun binding => binding.value.paths) ++
    readsOf .text (plan.text.toList.flatMap Interpolation.paths)

end Plan

namespace Renderer

mutual

/-- What a renderer and those below it read. -/
def reads : Renderer → List Read
  | .text _ => []
  | .element plan children => plan.reads ++ readsAll children

/-- What some renderers and those below them read. -/
def readsAll : List Renderer → List Read
  | [] => []
  | renderer :: renderers => reads renderer ++ readsAll renderers

end

end Renderer

end Templating
