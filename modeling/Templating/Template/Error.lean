import Templating.Condition.Basic
import Templating.Markup.Fault

/-!
# Errors of templates

A template can be refused because its name is taken, because its markup is wrong,
or because one of its conditions is; and a template can be asked for that is not
there.
-/

namespace Templating

/-- Why a template was refused or not found. -/
inductive TemplateError
  | nameTaken (name : String)
  | unknownName (name : String)
  | condition (tag : String) (fault : ConditionFault)
  | markup (error : MarkupError)
deriving DecidableEq

namespace TemplateError

/-- The explanation of an error; wrong markup explains itself. -/
def message : TemplateError → String
  | .nameTaken name => s!"Template already exists: {name}"
  | .unknownName name => s!"Template not found: {name}"
  | .condition tag fault =>
    let cause := fault.message
    s!"Invalid condition on <{tag}>: {cause}"
  | .markup error => error.message

/-- The explanations of an error and of what caused it, outermost first. -/
def explanations : TemplateError → List String
  | .condition tag fault => (TemplateError.condition tag fault).message :: fault.explanations
  | .markup error => error.explanations
  | error => [error.message]

end TemplateError

end Templating
