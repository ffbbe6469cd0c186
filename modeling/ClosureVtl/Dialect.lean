/-
Module: ClosureVtl.Dialect
Purpose: The template dialects and what sets them apart.
Main exports:
  Direction, Dialect, Dialect.name, Dialect.supportsLoops, Dialect.subject
-/
import ClosureVtl.Config

namespace ClosureVtl

/-!
Two dialects are rendered.  Resolver templates are lists of statements with
loops and assignments.  Mapping templates print one JSON value for one
direction of an integration and have no loops.  How each of them addresses names
and returns is in `ClosureVtl.Render.Address`, and which integration calls it
permits in `ClosureVtl.Integration`.
-/

/-- The side of an integration that a mapping template serves. -/
inductive Direction where
  | request
  | response
deriving DecidableEq, Repr, Inhabited

namespace Direction

/-- A direction in output. -/
def name : Direction → String
  | request => "request"
  | response => "response"

/-- A direction in messages. -/
def title : Direction → String
  | request => "Request"
  | response => "Response"

end Direction

/-- A dialect with the options it was set up with. -/
inductive Dialect where
  | resolver (config : ResolverConfig)
  | mapping (direction : Direction) (config : MappingConfig)
deriving DecidableEq, Repr, Inhabited

namespace Dialect

/-- The service a dialect is written for, as messages name it. -/
def name : Dialect → String
  | resolver _ => "appsync"
  | mapping .. => "apigateway"

/-- What a template of the dialect is, as messages name it. -/
def subject : Dialect → String
  | resolver _ => "resolver"
  | mapping .. => "mapping"

/-- Whether loops, and with them fused list operations, can be written. -/
def supportsLoops : Dialect → Bool
  | resolver _ => true
  | mapping .. => false

/-- Whether a template may call at most one integration. -/
def singleIntegration : Dialect → Bool
  | resolver config => config.singleIntegration
  | mapping _ config => config.singleIntegration

end Dialect

end ClosureVtl
