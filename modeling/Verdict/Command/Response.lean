import Verdict.Command.Answer

/-!
# Responses of the command

The exit status of an invocation, what it prints, and the failure that it reports. The quiet flag
leaves only the status.
-/

namespace Verdict.Command

/-- The end of an invocation. -/
structure Response where
  status : Nat
  stdout : String
  /-- The failure that is reported on the error stream. -/
  failure : Option Failure

/-- The source of the facts that a task reads. -/
def Task.source? : Task → Option String
  | .verify _ facts _ => some facts
  | .program _ facts => some facts
  | .probe _ facts _ _ => some facts
  | .policy _ => none

/-- Responds to an invocation, given the content of its source. -/
def Invocation.respond (i : Invocation) (content : Content) : Response :=
  match i.task.run content with
  | .ok answer => ⟨answer.status, if i.quiet then "" else answer.print i.format, none⟩
  | .error failure => ⟨1, "", if i.quiet then none else some failure⟩

/-- The line on the error stream for a message. -/
def Format.errorLine (format : Format) (message : String) : String :=
  match format with
  | .text => message ++ "\n"
  | .json => (Json.object [("error", .string message)]).compact ++ "\n"

/-- The message of a failure. -/
def Failure.message (f : Failure) : String :=
  f.summary ++ f.detail?.getD ""

/-- What is written on the error stream. -/
def Response.stderr (r : Response) (format : Format) : String :=
  match r.failure with
  | some failure => format.errorLine failure.message
  | none => ""

/-- The exit status where no task is done. -/
def Refusal.status : Refusal → Nat
  | usage => 2
  | help => 0
  | version => 0

end Verdict.Command
