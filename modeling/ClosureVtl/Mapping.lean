/-
Module: ClosureVtl.Mapping
Purpose: The request and response templates of one integration.
Main exports:
  IntegrationResponse, IntegrationMapping, IntegrationMapping.of,
  IntegrationMapping.withStatus
-/
import ClosureVtl.Render.Program

namespace ClosureVtl

/-!
An integration has one request template, a default response and further
responses by the status that the backend answers with.  Templates are registered
under a content type.
-/

/-- The content type that all templates are registered under. -/
def applicationJson : String := "application/json"

/-- An entry of the response list. -/
structure IntegrationResponse where
  statusCode : String
  /-- which answers of the backend select the entry; the default has none -/
  selectionPattern : Option String := none
  /-- templates by content type -/
  responseTemplates : List (String × String)
deriving DecidableEq, Repr, Inhabited

/-- The templates of one integration. -/
structure IntegrationMapping where
  /-- templates by content type -/
  requestTemplates : List (String × String)
  integrationResponses : List IntegrationResponse
deriving DecidableEq, Repr, Inhabited

/-- Refuses a template that was compiled for the other direction. -/
def MappingTemplate.expect (template : MappingTemplate) (direction : Direction) :
    Except Fault Unit :=
  if template.direction = direction then .ok ()
  else .error (.breach (.direction direction template.direction))

namespace IntegrationMapping

/-- A mapping of a request template and the default response. -/
def of (request response : MappingTemplate) : Except Fault IntegrationMapping := do
  request.expect .request
  response.expect .response
  return {
    requestTemplates := [(applicationJson, request.template)]
    integrationResponses :=
      [{ statusCode := "200", responseTemplates := [(applicationJson, response.template)] }] }

/-- Adds the response for one status. -/
def withStatus (mapping : IntegrationMapping) (status : UInt16) (response : MappingTemplate) :
    Except Fault IntegrationMapping := do
  response.expect .response
  let entry : IntegrationResponse :=
    { statusCode := toString status
      selectionPattern := some s!"^{status}$"
      responseTemplates := [(applicationJson, response.template)] }
  return { mapping with integrationResponses := mapping.integrationResponses ++ [entry] }

end IntegrationMapping

end ClosureVtl
