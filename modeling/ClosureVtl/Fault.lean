/-
Module: ClosureVtl.Fault
Purpose: The reasons for which a closure is not compiled.
Main exports:
  FaultClass, Unsupported, IllegalCall, AmbiguousBinding, Breach, Fault,
  Fault.faultClass, Fault.message
-/
import ClosureVtl.Closure.Node
import ClosureVtl.Dialect

namespace ClosureVtl

/-!
A compilation ends at its first fault.  Faults fall into classes with published
codes; within a class each cause is a constructor that carries what its message
names.  Node kinds are carried as the words of `Node.kind`.

The causes called `other` leave room for integrations that are written outside
this library and refuse a call for reasons of their own.
-/

/-! ### Classes -/

/-- The classes of faults.  One of them is never raised here: it is raised by a
template when it runs. -/
inductive FaultClass where
  | unsupportedConstruct
  | illegalIntegrationPosition
  | ambiguousBindingTarget
  /-- a reduction without initial value over an empty list -/
  | emptyReduceNoInitial
  | internalInvariantViolation
deriving DecidableEq, Repr, Inhabited

namespace FaultClass

/-- The published code of a class.  Codes never change their meaning. -/
def code : FaultClass → String
  | unsupportedConstruct => "SYN001"
  | illegalIntegrationPosition => "SYN002"
  | ambiguousBindingTarget => "SYN003"
  | emptyReduceNoInitial => "SYN004"
  | internalInvariantViolation => "SYN999"

/-- The symbolic name of a class, as guards in templates report it. -/
def name : FaultClass → String
  | unsupportedConstruct => "UnsupportedConstruct"
  | illegalIntegrationPosition => "IllegalIntegrationPosition"
  | ambiguousBindingTarget => "AmbiguousBindingTarget"
  | emptyReduceNoInitial => "EmptyReduceNoInitial"
  | internalInvariantViolation => "InternalInvariantViolation"

/-- The name of a class in data formats. -/
def constantName : FaultClass → String
  | unsupportedConstruct => "UNSUPPORTED_CONSTRUCT"
  | illegalIntegrationPosition => "ILLEGAL_INTEGRATION_POSITION"
  | ambiguousBindingTarget => "AMBIGUOUS_BINDING_TARGET"
  | emptyReduceNoInitial => "EMPTY_REDUCE_NO_INITIAL"
  | internalInvariantViolation => "INTERNAL_INVARIANT_VIOLATION"

/-- All classes in the order of their codes. -/
def all : List FaultClass :=
  [unsupportedConstruct, illegalIntegrationPosition, ambiguousBindingTarget,
    emptyReduceNoInitial, internalInvariantViolation]

/-- A code belongs to one class. -/
theorem code_inj {a b : FaultClass} (h : a.code = b.code) : a = b := by
  cases a <;> cases b <;> first | rfl | (exact absurd h (by decide))

end FaultClass

/-! ### Causes -/

/-- Constructs that the active dialect has no lowering for. -/
inductive Unsupported where
  /-- a number literal that is not finite -/
  | number (text : String)
  /-- a loop, or something lowered to one, in a dialect without loops -/
  | loop (what dialect : String)
  | patternParameter
  /-- a statement or operator that has no lowering in any dialect -/
  | construct (what : String)
  | inExpression (kind : String)
  | function (name : String)
  | callee (kind : String)
  | withoutCallback (method : String)
  | arity (method : String) (count : Nat)
  | rootParameter (dialect : String) (index : Nat)
  | captured (name dialect : String)
  | objectSpread
  | arraySpread
  | computedKey
  | composite
  | integration (kind dialect : String)
  | other (text : String)
deriving DecidableEq, Repr, Inhabited

/-- Integration calls that stand where the dialect forbids them. -/
inductive IllegalCall where
  | unconsumed
  | inResponse (kind : String)
  | secondInResolver (kind : String)
  | secondInRequest (kind : String)
  | other (text : String)
deriving DecidableEq, Repr, Inhabited

/-- Pattern elements from which no property can be derived. -/
inductive AmbiguousBinding where
  | withoutKey (kind : String)
  | keyKind (kind : String)
  | other (text : String)
deriving DecidableEq, Repr, Inhabited

/-- Violations of what the construction of an arena promises. -/
inductive Breach where
  | dangling (id : NodeId)
  | shared (child first second : NodeId)
  | loopBinding (kind : String)
  | inStatement (kind : String)
  | inExpression (kind : String)
  | patternWithoutValue
  | declarationName (kind : String)
  | objectMember (kind : String)
  | propertyKey (kind : String)
  | objectPatternMember (kind : String)
  | arrayPatternMember (kind : String)
  | pattern (kind : String)
  | bindingName (kind : String)
  | callbackParameter (kind : String)
  | integrationHandle
  | callSite (kind : String)
  | addressed (kind : String)
  | direction (expected found : Direction)
  /-- nodes nest deeper than there are nodes, so some node contains itself -/
  | cyclic
  | other (text : String)
deriving DecidableEq, Repr, Inhabited

/-- The reason for which a compilation ends. -/
inductive Fault where
  | unsupported (cause : Unsupported)
  | illegalCall (cause : IllegalCall)
  | ambiguousBinding (cause : AmbiguousBinding)
  | breach (cause : Breach)
deriving DecidableEq, Repr, Inhabited

/-! ### Messages -/

/-- What an unsupported construct is called. -/
def Unsupported.text : Unsupported → String
  | number text => s!"number literal `{text}`"
  | loop what dialect => s!"{what} in {dialect} templates"
  | patternParameter => "destructured resolver parameter"
  | construct what => what
  | inExpression kind => s!"{kind} in expression position"
  | function name => s!"call to function `{name}`"
  | callee kind => s!"call through a {kind}"
  | withoutCallback method => s!"`{method}` without an inline callback"
  | arity method count => s!"`{method}` with {count} arguments"
  | rootParameter dialect index => s!"{dialect} parameter at position {index}"
  | captured name dialect => s!"reference to `{name}` captured from outside the {dialect}"
  | objectSpread => "object spread in a mapping template"
  | arraySpread => "array spread in a mapping template"
  | computedKey => "computed property name in a mapping template"
  | composite =>
      "object or array value outside a path; nested structures cannot be printed by the primitive fallback"
  | integration kind dialect => s!"integration `{kind}` cannot be used in {dialect} templates"
  | other text => text

/-- Why an integration call is illegal. -/
def IllegalCall.text : IllegalCall → String
  | unconsumed => "integration result must be awaited or returned immediately"
  | inResponse kind => s!"`{kind}` called while rendering a response template"
  | secondInResolver kind =>
      s!"`{kind}` is a second integration call in a single-integration resolver"
  | secondInRequest kind => s!"`{kind}` is a second integration call in one request template"
  | other text => text

/-- Why the target of a binding is ambiguous. -/
def AmbiguousBinding.text : AmbiguousBinding → String
  | withoutKey kind => s!"{kind} has no property name to read from"
  | keyKind kind => s!"property name is a {kind}"
  | other text => text

/-- Which promise was broken. -/
def Breach.text : Breach → String
  | dangling id => s!"node {id} is not part of this IR"
  | shared child first second =>
      s!"node {child} is already a child of {first}, cannot adopt it into {second}"
  | loopBinding kind => s!"loop binding is a {kind}"
  | inStatement kind => s!"{kind} in statement position"
  | inExpression kind => s!"{kind} in expression position"
  | patternWithoutValue => "destructuring declaration without an initializer"
  | declarationName kind => s!"declaration name is a {kind}"
  | objectMember kind => s!"{kind} inside an object literal"
  | propertyKey kind => s!"property name is a {kind}"
  | objectPatternMember kind => s!"{kind} inside an object pattern"
  | arrayPatternMember kind => s!"{kind} inside an array pattern"
  | pattern kind => s!"cannot destructure with a {kind}"
  | bindingName kind => s!"binding name is a {kind}"
  | callbackParameter kind => s!"callback parameter is a {kind}"
  | integrationHandle => "integration handle is not part of this IR"
  | callSite kind => s!"integration dispatch on a {kind}"
  | addressed kind => s!"cannot dereference a {kind}"
  | direction expected found =>
      s!"expected a {expected.title} template, got a {found.title} template"
  | cyclic => "a node contains itself"
  | other text => text

namespace Fault

/-- The class of a fault. -/
def faultClass : Fault → FaultClass
  | unsupported _ => .unsupportedConstruct
  | illegalCall _ => .illegalIntegrationPosition
  | ambiguousBinding _ => .ambiguousBindingTarget
  | breach _ => .internalInvariantViolation

/-- The text of a fault: its class in words, then its cause. -/
def message : Fault → String
  | unsupported cause => "unsupported construct: " ++ cause.text
  | illegalCall cause => "illegal integration position: " ++ cause.text
  | ambiguousBinding cause => "ambiguous binding target: " ++ cause.text
  | breach cause => "internal invariant violation: " ++ cause.text

end Fault

end ClosureVtl
