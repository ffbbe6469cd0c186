/-
Module: ClosureVtl.Config
Purpose: Options of the two template dialects and their defaults.
Main exports:
  ResolverConfig, MappingConfig, Config
-/

namespace ClosureVtl

/-!
Each dialect has its own section of options.  The defaults are those of a
configuration that names no option at all.
-/

/-- Options of resolver templates. -/
structure ResolverConfig where
  /-- reject a second integration call within one resolver -/
  singleIntegration : Bool := false
  /-- keep top-level locals in the stash, where later pipeline stages see them -/
  stashLocals : Bool := true
deriving DecidableEq, Repr, Inhabited

/-- Options of mapping templates. -/
structure MappingConfig where
  /-- reject a second integration call within one request template -/
  singleIntegration : Bool := true
  /-- status of the answer when a value cannot be printed as a primitive -/
  errorStatus : UInt16 := 500
deriving DecidableEq, Repr, Inhabited

/-- Options of all dialects. -/
structure Config where
  appsync : ResolverConfig := {}
  apigateway : MappingConfig := {}
deriving DecidableEq, Repr, Inhabited

end ClosureVtl
