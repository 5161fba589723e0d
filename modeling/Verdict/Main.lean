import Verdict.Command.Response

/-!
# The command

Reads the arguments and the source of the facts, and prints the response.
-/

namespace Verdict.Command

/-- How the command is used. -/
def usageText : String :=
  lines
    ["Policy-verified financial decisions with auditable proofs",
      "",
      "Usage: proofgate [--output text|json] [--quiet] TASK",
      "",
      "Tasks:",
      "  verify DOMAIN --facts FILE [--mode hard|soft]",
      "  program DOMAIN --facts FILE",
      "  probe DOMAIN --facts FILE --flip FIELD=VALUE [--mode hard|soft]",
      "  policy DOMAIN"]

/-- The content of bytes that should be text. The document reader does not say what is wrong with
a text. -/
def contentOfBytes (bytes : ByteArray) : Content :=
  match String.fromUTF8? bytes with
  | some text => .text text "the text is not one JSON document"
  | none => .unreadable "stream did not contain valid UTF-8"

/-- All bytes of a stream. -/
partial def readAll (stream : IO.FS.Stream) (found : ByteArray) : IO ByteArray := do
  let bytes ← stream.read 65536
  if bytes.isEmpty then pure found else readAll stream (found ++ bytes)

/-- The content of a source. -/
def readSource (path : String) : IO Content := do
  try
    if isStandardInput path then
      return contentOfBytes (← readAll (← IO.getStdin) .empty)
    else
      return contentOfBytes (← IO.FS.readBinFile path)
  catch e => return .unreadable (toString e)

/-- Prints a response. -/
def emit (format : Format) (response : Response) : IO Unit := do
  (← IO.getStdout).putStr response.stdout
  (← IO.getStderr).putStr (response.stderr format)

end Verdict.Command

open Verdict.Command in
/-- Runs the command. -/
def main (arguments : List String) : IO UInt32 := do
  match Invocation.ofArguments arguments with
  | .ok invocation =>
    let content ← match invocation.task.source? with
      | some path => readSource path
      | none => pure (.text "" "")
    let response := invocation.respond content
    emit invocation.format response
    return .ofNat response.status
  | .error refusal =>
    match refusal with
    | .usage => (← IO.getStderr).putStr usageText
    | .help => (← IO.getStdout).putStr usageText
    | .version => (← IO.getStdout).putStr "proofgate 0.1.0\n"
    return .ofNat refusal.status
