/-
Module: ClosureVtl.Config.Schema
Purpose: The JSON schema of configurations.
Main exports:
  Config.OptionInfo, Config.SectionInfo, Config.sections, Config.jsonSchema
-/
import ClosureVtl.Config
import ClosureVtl.Text.Json

namespace ClosureVtl.Config

/-!
The schema is written from a description of the sections and their options.  The
defaults in it are those of the configuration types.
-/

/-- The default of an option, which also says what kind of option it is. -/
inductive OptionDefault where
  | flag (value : Bool)
  | status (value : UInt16)
deriving DecidableEq, Repr, Inhabited

/-- An option of a section. -/
structure OptionInfo where
  key : String
  description : String
  default : OptionDefault
deriving DecidableEq, Repr, Inhabited

/-- A section of a configuration. -/
structure SectionInfo where
  key : String
  /-- the name of the definition that describes the section -/
  definition : String
  description : String
  options : List OptionInfo
deriving DecidableEq, Repr, Inhabited

/-- The section of resolver templates. -/
def appsyncSection : SectionInfo where
  key := "appsync"
  definition := "AppsyncConfig"
  description := "Options for the statement-emitting resolver dialect."
  options :=
    [ { key := "single_integration"
        description := "Reject a second integration call within one resolver."
        default := .flag ({} : ResolverConfig).singleIntegration },
      { key := "stash_locals"
        description :=
          "Store top-level locals in `$context.stash` so later pipeline stages see them."
        default := .flag ({} : ResolverConfig).stashLocals } ]

/-- The section of mapping templates. -/
def apigatewaySection : SectionInfo where
  key := "apigateway"
  definition := "ApiGatewayConfig"
  description := "Options for the JSON-path mapping dialect."
  options :=
    [ { key := "single_integration"
        description := "Reject a second integration call within one request template."
        default := .flag ({} : MappingConfig).singleIntegration },
      { key := "error_status"
        description := "Response status written when a value cannot be rendered as a primitive."
        default := .status ({} : MappingConfig).errorStatus } ]

/-- All sections. -/
def sections : List SectionInfo := [apigatewaySection, appsyncSection]

/-! ### JSON text -/

/-- An object of JSON text by its members. -/
def jsonObject (members : List (String × String)) : String :=
  let member (m : String × String) : String := Text.jsonString m.1 ++ ":" ++ m.2
  "\x7b" ++ ",".intercalate (members.map member) ++ "\x7d"

/-- The default of an option in JSON. -/
def OptionDefault.json : OptionDefault → String
  | flag value => if value then "true" else "false"
  | status value => toString value

/-- The members of a schema that say of what kind an option is. -/
def OptionDefault.kindMembers : OptionDefault → List (String × String)
  | flag _ => [("type", Text.jsonString "boolean")]
  | status _ =>
    [("type", Text.jsonString "integer"), ("format", Text.jsonString "uint16"),
      ("minimum", "0"), ("maximum", toString (UInt16.size - 1))]

/-- The schema of an option. -/
def OptionInfo.schema (o : OptionInfo) : String :=
  jsonObject
    ([("description", Text.jsonString o.description)] ++ o.default.kindMembers
      ++ [("default", o.default.json)])

/-- The schema of a section. -/
def SectionInfo.schema (s : SectionInfo) : String :=
  jsonObject
    [("description", Text.jsonString s.description), ("type", Text.jsonString "object"),
      ("properties", jsonObject (s.options.map fun o => (o.key, o.schema)))]

/-- A section as a member of the whole: a reference to its definition, and its
defaults. -/
def SectionInfo.member (s : SectionInfo) : String :=
  jsonObject
    [("$ref", Text.jsonString ("#/$defs/" ++ s.definition)),
      ("default", jsonObject (s.options.map fun o => (o.key, o.default.json)))]

/-- The JSON schema of configurations. -/
def jsonSchema : String :=
  jsonObject
    [("$schema", Text.jsonString "https://json-schema.org/draft/2020-12/schema"),
      ("title", Text.jsonString "SynthConfig"),
      ("description", Text.jsonString "Root configuration structure."),
      ("type", Text.jsonString "object"),
      ("properties", jsonObject (sections.map fun s => (s.key, s.member))),
      ("$defs", jsonObject (sections.map fun s => (s.definition, s.schema)))]

end ClosureVtl.Config
