import Verdict.Command.Invocation
import Verdict.Json.Printer
import Verdict.Json.Reader
import Verdict.Report.Json

/-!
# Answers of the command

A task is done over the text of its facts and gives an answer or fails. An answer is printed as text
or as JSON.
-/

namespace Verdict.Command

/-- What the source of the facts holds: a text, with what the document reader has to say of it if it
is no document, or nothing that can be read, with the reason. -/
inductive Content where
  | text (text complaint : String)
  | unreadable (reason : String)

/-- Why a task fails. -/
inductive Failure where
  /-- The standard input is no text. -/
  | unreadableInput (reason : String)
  /-- There is no such file, or it is no text. -/
  | unreadableFile (path reason : String)
  /-- The text of the facts is no document. -/
  | invalidJson (path complaint : String)
  /-- The replacement has no field or no value. -/
  | malformedFlip (flip : String)
  /-- The request has no answer. -/
  | request (error : RequestError)
  /-- The proof program cannot be written. -/
  | program (cause : SortMismatch)

/-- The wording of a failure up to the words of the system or of the document reader. -/
def Failure.summary : Failure → String
  | unreadableInput _ => "error: cannot read stdin: "
  | unreadableFile path _ => "error: cannot read facts file " ++ path ++ ": "
  | invalidJson path _ => "error: invalid JSON in " ++ path ++ ": "
  | malformedFlip flip => "error: --flip must be field=value, got '" ++ flip ++ "'"
  | request error => "error: " ++ error.message
  | program cause => "error: " ++ cause.message

/-- The words of the system or of the document reader. -/
def Failure.detail? : Failure → Option String
  | unreadableInput reason => some reason
  | unreadableFile _ reason => some reason
  | invalidJson _ complaint => some complaint
  | _ => none

/-- What a task gives. -/
inductive Answer where
  | report (report : Report)
  | program (domain : Domain) (program : Program)
  | probe (domain : Domain) (field : String) (value : Json) (unchanged : Bool)
  | policy (domain : Domain)

/-! ## Tasks -/

/-- A path names the standard input if it is a single hyphen, up to slashes and dots after it. -/
def isStandardInput (path : String) : Bool :=
  match path.toList with
  | '-' :: rest =>
    match rest with
    | [] => true
    | '/' :: _ => ((String.ofList rest).splitOn "/").all fun part => part = "" || part = "."
    | _ => false
  | _ => false

/-- The facts in a source. -/
def readFacts (path : String) : Content → Except Failure Json
  | .unreadable reason =>
    .error (if isStandardInput path then .unreadableInput reason else .unreadableFile path reason)
  | .text text complaint =>
    match Json.parse? text with
    | some facts => .ok facts
    | none => .error (.invalidJson path complaint)

/-- The domain of a name. -/
def findDomain (name : String) : Except Failure Domain :=
  match Domain.ofName? name with
  | some domain => .ok domain
  | none => .error (.request (.unknownDomain name))

/-- The field and the value of a replacement, which stand on the two sides of an equals sign. A
value that is no document stands for itself. -/
def parseFlip? (flip : String) : Option (String × Json) :=
  match flip.toList.dropWhile (· != '=') with
  | [] => none
  | _ :: raw =>
    let field := Text.trim (flip.toList.takeWhile (· != '='))
    let value := String.ofList (Text.trim raw)
    if field.isEmpty then none
    else some (String.ofList field, (Json.parse? value).getD (.string value))

/-- Does a task over the content of its source. -/
def Task.run (content : Content) : Task → Except Failure Answer
  | .verify domain path mode => do
    let facts ← readFacts path content
    let report ← (decideRequest domain facts mode).mapError .request
    pure (.report report)
  | .program domain path => do
    let domain ← findDomain domain
    let facts ← readFacts path content
    let record ← (FactRecord.assemble domain facts).mapError .request
    let program ← record.program.mapError .program
    pure (.program domain program)
  | .probe domain path flip mode => do
    let domain ← findDomain domain
    match parseFlip? flip with
    | none => .error (.malformedFlip flip)
    | some (field, value) => do
      let facts ← readFacts path content
      let record ← (FactRecord.assemble domain facts).mapError .request
      let unchanged ← (record.unchangedBy field value mode).mapError .request
      pure (.probe domain field value unchanged)
  | .policy domain => do
    let domain ← findDomain domain
    pure (.policy domain)

/-! ## Printing -/

/-- Lines, each with its end. -/
def lines (ls : List String) : String :=
  String.join (ls.map (· ++ "\n"))

/-- Names with commas between them. -/
def listed (names : List String) : String :=
  if names.isEmpty then "(none)" else ", ".intercalate names

/-- The text of a report. -/
def reportText (r : Report) : String :=
  lines <|
    ["decision: " ++ r.decision.name,
      "policy: " ++ r.policyVersion ++ " (" ++ r.mode.name ++ " mode)",
      "satisfiable: " ++ toString r.satisfiable,
      "checked: " ++ listed r.checkedInvariants,
      "unsat core: " ++ listed r.unsatCore] ++
    (r.chosenAction.map ("chosen action: " ++ ·)).toList ++
    ["explanation: " ++ r.explanation.text] ++
    (r.justification.map ("justification: " ++ ·)).toList ++
    [match r.error with
      | some e => "error: " ++ e.message
      | none => "program digest: " ++ r.programDigest]

/-- A row of a table: its first column is 24 characters wide. -/
def row (name entry : String) : String :=
  "  " ++ name ++ String.ofList (List.replicate (24 - name.length) ' ') ++ " " ++ entry

/-- The row of a clause. -/
def clauseRow (policy : Policy) (clause : Clause) : String :=
  row clause.name (policy.expr clause.condition).text

/-- The text of a policy. -/
def policyText (policy : Policy) : String :=
  lines <|
    ["policy " ++ policy.id ++ " (" ++ policy.domain.name ++ ")", "", "facts:"] ++
    policy.facts.map (fun d => row d.fact d.sort.name) ++
    ["invariants:"] ++
    policy.invariants.map (clauseRow policy) ++
    (if policy.actions.isEmpty then []
      else "actions (priority order):" :: policy.actions.map (clauseRow policy)) ++
    ["fallback: " ++ policy.fallback.name]

/-- A clause as an object; `key` is the name of the member that holds its condition. -/
def clauseJson (policy : Policy) (key : String) (clause : Clause) : Json :=
  .ofMembers [("name", .string clause.name), (key, .string (policy.expr clause.condition).text)]

/-- A policy as an object. -/
def policyJson (policy : Policy) : Json :=
  .ofMembers
    [("id", .string policy.id),
      ("domain", .string policy.domain.name),
      ("facts", .array (policy.facts.map fun d =>
        .ofMembers [("id", .string d.fact), ("sort", .string d.sort.name)])),
      ("invariants", .array (policy.invariants.map (clauseJson policy "expr"))),
      ("actions", .array (policy.actions.map (clauseJson policy "guard"))),
      ("fallback", .string policy.fallback.name)]

namespace Answer

/-- The text of an answer. -/
def text : Answer → String
  | report r => reportText r
  | program _ p => p.text
  | probe _ field value unchanged =>
    lines [field ++ "=" ++ value.compact ++ ": decision " ++
      if unchanged then "unchanged" else "changed"]
  | policy domain => policyText domain.policy

/-- An answer as a JSON value. -/
def toJson : Answer → Json
  | report r => r.toJson
  | program domain p =>
    .ofMembers [("domain", .string domain.name), ("program", .string p.text)]
  | probe domain field value unchanged =>
    .ofMembers [("domain", .string domain.name), ("field", .string field), ("value", value),
      ("unchanged", .bool unchanged)]
  | policy domain => policyJson domain.policy

/-- An answer in a format. -/
def print (format : Format) (a : Answer) : String :=
  match format with
  | .text => a.text
  | .json => a.toJson.pretty ++ "\n"

/-- The exit status of an answer: a report with an error counts as failed. -/
def status : Answer → Nat
  | report r => if r.error.isSome then 1 else 0
  | _ => 0

end Answer

end Verdict.Command
