/-
Module: ClosureVtl.Integration
Purpose: Calls of external services and the handlers that render them.
Main exports:
  CallSite, CallSite.of, Integration, Integration.unsupportedIn,
  Integration.Style, Integration.ofStyle, Walker.dispatch
-/
import ClosureVtl.Render.Walker

namespace ClosureVtl

/-!
A call whose callee refers to an integration is rendered by the handler that the
integration has for the dialect.  A handler works through the walker: it renders
arguments and writes lines like any other rule.  An integration without a
handler for a dialect cannot be used in it.
-/

/-- A call as its handler sees it. -/
structure CallSite where
  call : NodeId
  /-- the arguments without wrappers and parentheses -/
  args : List NodeId
deriving DecidableEq, Repr, Inhabited

namespace CallSite

/-- The call site of a call node. -/
def of (a : Arena) (call : NodeId) : Except Fault CallSite :=
  match a.node call with
  | .error fault => .error fault
  | .ok (.call _ args) => .ok { call, args := args.map a.argumentExpr }
  | .ok other => .error (.breach (.callSite other.kind))

/-- An argument by position. -/
def arg? (site : CallSite) (index : Nat) : Option NodeId := site.args[index]?

end CallSite

/-- What renders a call site. -/
abbrev Handler := Walker → CallSite → Render String

/-- A downstream service that closures can call. -/
structure Integration where
  /-- what compiled templates list, such as `table.get` -/
  kind : String
  /-- renders call sites of resolver templates -/
  resolver : Handler
  /-- renders call sites of mapping templates -/
  mapping : Handler

namespace Integration

/-- The handler of an integration that does not know a dialect. -/
def unsupportedIn (kind dialect : String) : Handler := fun _ _ =>
  Render.unsupported (.integration kind dialect)

/-! ### Common calling styles

Most integrations are called in one of a few ways: by a request object that is
left in the stash, or by a call that lists the arguments.
-/

/-- Leaves a request in the stash and reads the answer of the previous step. -/
def stashRequest (kind : String) : Handler := fun w site => do
  let payload ←
    match site.args with
    | [] => pure Text.nullText
    | first :: _ => w.argument first
  Render.emit
    ("#set($context.stash.request = \x7b\"function\": \"" ++ kind ++ "\", \"payload\": "
      ++ payload ++ "\x7d)")
  return "$context.prev.result"

/-- A request object in JSON. -/
def jsonRequest (kind : String) : Handler := fun w site => do
  let payload ←
    match site.args with
    | [] => pure "null"
    | first :: _ => w.fragment first
  return "\x7b\"function\":\"" ++ kind ++ "\",\"payload\":" ++ payload ++ "\x7d"

/-- A call that lists the kind and all arguments. -/
def invocation (kind : String) : Handler := fun w site => do
  let args ← site.args.mapM w.argument
  return "$util.invoke(" ++ ", ".intercalate (Text.quote kind :: args) ++ ")"

/-- The kind and all arguments in JSON. -/
def jsonInvocation (kind : String) : Handler := fun w site => do
  let args ← site.args.mapM w.fragment
  return "\x7b\"kind\":\"" ++ kind ++ "\",\"args\":[" ++ ",".intercalate args ++ "]\x7d"

/-- The common calling styles. -/
inductive Style where
  /-- by a request in both dialects -/
  | invoke
  /-- by a call in both dialects -/
  | inline
  | appsyncOnly
  | apigatewayOnly
  | none
deriving DecidableEq, Repr, Inhabited

/-- An integration in one of the common styles. -/
def ofStyle (kind : String) : Style → Integration
  | .invoke => { kind, resolver := stashRequest kind, mapping := jsonRequest kind }
  | .inline => { kind, resolver := invocation kind, mapping := jsonInvocation kind }
  | .appsyncOnly =>
    { kind, resolver := stashRequest kind, mapping := unsupportedIn kind "apigateway" }
  | .apigatewayOnly =>
    { kind, resolver := unsupportedIn kind "appsync", mapping := jsonRequest kind }
  | .none =>
    { kind, resolver := unsupportedIn kind "appsync",
      mapping := unsupportedIn kind "apigateway" }

/-- The handler of an integration for a dialect. -/
def handler (integration : Integration) : Dialect → Handler
  | .resolver _ => integration.resolver
  | .mapping .. => integration.mapping

end Integration

/-- The fault of a second call where a template may call one integration. -/
def Dialect.secondCall (dialect : Dialect) (kind : String) : IllegalCall :=
  match dialect with
  | .resolver _ => .secondInResolver kind
  | .mapping .. => .secondInRequest kind

/-- Why an integration must not be called, given the number of calls made. -/
def Dialect.refusal? (dialect : Dialect) (kind : String) (made : Nat) : Option IllegalCall :=
  match dialect with
  | .mapping .response _ => some (.inResponse kind)
  | _ => if dialect.singleIntegration ∧ made ≠ 0 then some (dialect.secondCall kind) else none

namespace Walker

/-- Hands a call to an integration of a table, if the dialect permits it.  The
call is recorded before its arguments are rendered. -/
def dispatch (w : Walker) (table : Array Integration) (id : IntegrationId) (call : NodeId) :
    Render String := do
  match table[id.index]? with
  | none => Render.breach .integrationHandle
  | some integration =>
    match w.dialect.refusal? integration.kind (← get).integrations.size with
    | some cause => Render.fault (.illegalCall cause)
    | none =>
      Render.recordIntegration id
      let site ← Render.ofExcept (CallSite.of w.arena call)
      integration.handler w.dialect w site

end Walker

end ClosureVtl
