/-
Module: ClosureVtl.Render.Program
Purpose: Rendering programs: the walker of a program and the templates it yields.
Main exports:
  Program.walkerWithin, Program.walker, Program.render, Program.debugText,
  ResolverTemplate, Program.compileResolver, MappingTemplate, Program.compileMapping
-/
import ClosureVtl.Closure.Builder
import ClosureVtl.Render.Fragment
import ClosureVtl.Render.Statement

namespace ClosureVtl

/-!
The rules of rendering call a walker for the parts of a node.  Here the walker is
made from the rules: at each level the rules are given the walker of the level
below.  A part is always further down in its node, and a node is rendered by at
most three entry points in a row, as JSON text, as an expression and as a call of
an integration, before one of its parts is.  So three levels for each node are
enough; a program that needs more has a node that contains itself.
-/

/-- A walker that renders nothing. -/
def Walker.exhausted (arena : Arena) (dialect : Dialect) : Walker where
  arena := arena
  dialect := dialect
  expression _ := Render.breach .cyclic
  statement _ _ := Render.breach .cyclic
  expand _ _ := Render.breach .cyclic
  fragment _ := Render.breach .cyclic
  integrate _ _ := Render.breach .cyclic

/-- The walker whose parts are rendered by another one. -/
def Walker.above (inner : Walker) (integrations : Array Integration) : Walker where
  arena := inner.arena
  dialect := inner.dialect
  expression := inner.renderExpression
  statement := inner.renderStatement
  expand := inner.expandPattern
  fragment := inner.renderFragment
  integrate := inner.dispatch integrations

namespace Program

/-- A walker that descends at most `n` levels. -/
def walkerWithin (p : Program) (dialect : Dialect) : Nat → Walker
  | 0 => Walker.exhausted p.arena dialect
  | n + 1 => (p.walkerWithin dialect n).above p.integrations

/-- The number of levels that suffice for a program. -/
def depth (p : Program) : Nat := 3 * (p.arena.size + 1)

/-- The walker of a program. -/
def walker (p : Program) (dialect : Dialect) : Walker :=
  p.walkerWithin dialect p.depth

/-- The integration behind a handle. -/
def integration? (p : Program) (id : IntegrationId) : Option Integration :=
  p.integrations[id.index]?

/-- A program in messages, by its size. -/
def debugText (p : Program) : String :=
  "Ir \x7b nodes: " ++ toString p.arena.size ++ ", integrations: "
    ++ toString p.integrations.size ++ " \x7d"

/-- Renders a closure to a finished template. -/
def render (p : Program) (dialect : Dialect) (root : NodeId) : Except Fault Output :=
  match ((p.walker dialect).renderRoot root).runOn {} with
  | (.ok (), out) => .ok out
  | (.error fault, _) => .error fault

end Program

/-- A compiled resolver template. -/
structure ResolverTemplate where
  template : String
  /-- the kinds of the integrations that it calls, in call order -/
  integrations : List String
deriving DecidableEq, Repr, Inhabited

/-- A compiled mapping template. -/
structure MappingTemplate where
  direction : Direction
  template : String
deriving DecidableEq, Repr, Inhabited

namespace Program

/-- Compiles a closure to a resolver template. -/
def compileResolver (p : Program) (root : NodeId) (config : ResolverConfig) :
    Except Fault ResolverTemplate :=
  (p.render (.resolver config) root).map fun out =>
    { template := out.text
      integrations := out.integrations.toList.filterMap fun id =>
        (p.integration? id).map Integration.kind }

/-- Compiles a closure to a mapping template for one direction. -/
def compileMapping (p : Program) (root : NodeId) (direction : Direction)
    (config : MappingConfig) : Except Fault MappingTemplate :=
  (p.render (.mapping direction config) root).map fun out =>
    { direction, template := out.text }

end Program

end ClosureVtl
