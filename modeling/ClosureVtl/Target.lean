/-
Module: ClosureVtl.Target
Purpose: The kinds of template that can be asked for by name.
Main exports:
  Target, Target.name, Target.all, Target.ofName?, Target.compile
-/
import ClosureVtl.Render.Program

namespace ClosureVtl

/-!
A target is a kind of template with a name.  The options of its dialect are taken
from the configuration of all dialects.
-/

/-- A kind of template. -/
inductive Target where
  | appsync
  | apigateway (direction : Direction)
deriving DecidableEq, Repr, Inhabited

namespace Target

/-- The name of a target. -/
def name : Target → String
  | appsync => "appsync"
  | apigateway .request => "apigateway-request"
  | apigateway .response => "apigateway-response"

/-- All targets. -/
def all : List Target := [appsync, apigateway .request, apigateway .response]

/-- A target by its name. -/
def ofName? (name : String) : Option Target :=
  all.find? fun target => target.name == name

/-- The dialect of a target under a configuration. -/
def dialect (target : Target) (config : Config) : Dialect :=
  match target with
  | appsync => .resolver config.appsync
  | apigateway direction => .mapping direction config.apigateway

/-- Compiles a closure to the text of a template. -/
def compile (target : Target) (p : Program) (root : NodeId) (config : Config) :
    Except Fault String :=
  (p.render (target.dialect config) root).map Output.text

/-- Every target is found by its name. -/
theorem ofName?_name (target : Target) : ofName? target.name = some target := by
  rcases target with _ | (_ | _) <;> decide

end Target

end ClosureVtl
