/-
Module: ClosureVtl.Config.Reading
Purpose: Configurations from TOML text and files.
Main exports:
  ConfigError, ConfigError.message, Config.ofToml?, Config.load
-/
import ClosureVtl.Config
import ClosureVtl.Files
import ClosureVtl.Toml.Document

namespace ClosureVtl

/-!
A configuration is a table with a section for each dialect.  Options that are not
named keep their defaults, and keys that name no option are ignored.  A section
may also be an array that lists the options in their order; missing ones keep
their defaults, and further items are ignored.  A date in place of a section
names no option.
-/

/-! ### Values of options -/

namespace Toml.Value

/-- A truth value. -/
def flag? : Value → Option Bool
  | boolean value => some value
  | _ => none

/-- A status of sixteen bits. -/
def status? : Value → Option UInt16
  | integer (.ofNat n) => if n < Nat.pow 2 16 then some n.toUInt16 else none
  | _ => none

end Toml.Value

/-- An option that may be missing. -/
def optionOr {α : Type} (default : α) (read : Toml.Value → Option α) :
    Option Toml.Value → Option α
  | none => some default
  | some value => read value

/-! ### Sections -/

/-- The values of the named options of a section, in their order; `none` if a
value cannot be a section. -/
def sectionValues (names : List String) : Toml.Value → Option (List (Option Toml.Value))
  | .table _ entries => some (names.map fun name => Toml.Table.get? entries name)
  | .array items => some (names.zipIdx.map fun name => items[name.2]?)
  | .tables earlier last =>
    let items := (earlier ++ [last]).map (Toml.Value.table .header)
    some (names.zipIdx.map fun name => items[name.2]?)
  | .datetime => some (names.map fun _ => none)
  | _ => none

/-- A resolver section. -/
def ResolverConfig.ofToml? (value : Toml.Value) : Option ResolverConfig := do
  let base : ResolverConfig := {}
  match ← sectionValues ["single_integration", "stash_locals"] value with
  | [single, stash] =>
    return {
      singleIntegration := ← optionOr base.singleIntegration Toml.Value.flag? single
      stashLocals := ← optionOr base.stashLocals Toml.Value.flag? stash }
  | _ => none

/-- A mapping section. -/
def MappingConfig.ofToml? (value : Toml.Value) : Option MappingConfig := do
  let base : MappingConfig := {}
  match ← sectionValues ["single_integration", "error_status"] value with
  | [single, status] =>
    return {
      singleIntegration := ← optionOr base.singleIntegration Toml.Value.flag? single
      errorStatus := ← optionOr base.errorStatus Toml.Value.status? status }
  | _ => none

namespace Config

/-- The configuration that a document states. -/
def ofTable? (document : Toml.Table) : Option Config := do
  let base : Config := {}
  return {
    appsync := ← optionOr base.appsync ResolverConfig.ofToml? (document.get? "appsync")
    apigateway := ← optionOr base.apigateway MappingConfig.ofToml? (document.get? "apigateway") }

/-- The configuration that a text states; `none` if the text is malformed or an
option has a value of the wrong kind. -/
def ofToml? (text : String) : Option Config :=
  (Toml.document? text).bind ofTable?

end Config

/-! ### Files -/

/-- Why there is no configuration. -/
inductive ConfigError where
  | unreadable (path : String) (failure : ReadFailure)
  | malformed
deriving DecidableEq, Repr, Inhabited

/-- What an error is reported as. -/
def ConfigError.message : ConfigError → String
  | unreadable path failure => s!"failed to read {path}: {failure.text}"
  | malformed => "invalid config"

/-- Loads a configuration from the file at a path. -/
def Config.load (place : Place) (path : String) : Except ConfigError Config :=
  match place.read path with
  | .error failure => .error (.unreadable path failure)
  | .ok text =>
    match Config.ofToml? text with
    | some config => .ok config
    | none => .error .malformed

end ClosureVtl
