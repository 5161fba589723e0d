import Verdict.Domain
import Verdict.Fact.Value
import Verdict.Policy.Basic

/-!
# Errors of requests

The reasons why a request cannot be answered, and their wording.
-/

namespace Verdict

/-- A fact has a value that cannot be written under its declared sort. -/
structure SortMismatch where
  fact : String
  declared : FactSort
  found : Value.Kind
deriving DecidableEq

/-- The wording of a sort mismatch. -/
def SortMismatch.message (e : SortMismatch) : String :=
  "fact '" ++ e.fact ++ "' is declared " ++ e.declared.name ++ " but holds a " ++ e.found.name ++
    " value"

/-- Why a request has no answer. -/
inductive RequestError where
  /-- There is no domain of this name. -/
  | unknownDomain (name : String)
  /-- The facts are not an object. -/
  | notAnObject
  /-- The value stated for a fact is not of its kind. -/
  | typeMismatch (fact : String) (expected : Value.Kind) (found : Json.Kind)
  /-- The domain has no fact of this name. -/
  | unknownField (domain : Domain) (field : String)
  /-- The proof program cannot be written. -/
  | program (cause : SortMismatch)
deriving DecidableEq

/-- The wording of an error. -/
def RequestError.message : RequestError → String
  | unknownDomain name => "unknown domain: " ++ name
  | notAnObject => "deserialization error: facts must be a JSON object"
  | typeMismatch fact expected found =>
    "type mismatch for fact '" ++ fact ++ "': expected " ++ expected.name ++ ", got " ++ found.name
  | unknownField domain field => "domain '" ++ domain.name ++ "' has no fact named '" ++ field ++ "'"
  | program cause => "proof program: " ++ cause.message

end Verdict
