import Verdict.Report.Basic

/-!
# Invocations of the command

What the command can be asked to do, and how its arguments say so. Options may stand before and
after the subject they belong to; the output format and the quiet flag may also stand before the
task. An option is given at most once in a place, and its value stands after an equals sign or as
the next argument, which then must not look like an option.
-/

namespace Verdict.Command

/-- The format of what the command prints. -/
inductive Format where
  | text | json
deriving DecidableEq

/-- What the command is asked to do. -/
inductive Task where
  /-- Decide a request. -/
  | verify (domain facts : String) (mode : Mode)
  /-- Write the proof program of a request. -/
  | program (domain facts : String)
  /-- Decide a request with and without one fact replaced. -/
  | probe (domain facts flip : String) (mode : Mode)
  /-- Show the policy of a domain. -/
  | policy (domain : String)

/-- A task and how its answer is to be printed. -/
structure Invocation where
  format : Format
  quiet : Bool
  task : Task

/-- The names of the tasks. -/
inductive Verb where
  | verify | program | probe | policy
deriving DecidableEq

/-- The word for a task. -/
def Verb.ofName? (name : String) : Option Verb :=
  [("verify", verify), ("program", program), ("probe", probe), ("policy", policy)].lookup name

/-- The options that have a value. -/
inductive ValueOption where
  | output | facts | mode | flip
deriving DecidableEq

/-- The option of a name, in the place before the task or among the arguments of a task. -/
def ValueOption.ofName? (verb : Option Verb) (name : String) : Option ValueOption :=
  match name with
  | "output" => some output
  | "facts" => if verb ∈ [some .verify, some .program, some .probe] then some facts else none
  | "mode" => if verb ∈ [some .verify, some .probe] then some mode else none
  | "flip" => if verb = some .probe then some flip else none
  | _ => none

/-- What the arguments in one place have stated. -/
structure Stated where
  output : Option Format := none
  quiet : Bool := false
  facts : Option String := none
  mode : Option Mode := none
  flip : Option String := none
  domain : Option String := none

/-- Why no task is done. -/
inductive Refusal where
  /-- The arguments are not those of a task. -/
  | usage
  /-- A description of the command is asked for. -/
  | help
  /-- The version of the command is asked for. -/
  | version
deriving DecidableEq

/-- The format of a name. -/
def Format.ofName? (name : String) : Option Format :=
  [("text", text), ("json", json)].lookup name

/-- The mode of a name. -/
def modeOfName? (name : String) : Option Mode :=
  [("hard", Mode.hard), ("soft", Mode.soft)].lookup name

/-- Takes note of the value of an option. An option that was given already, a value that it does
not have, and an empty path are refused. -/
def Stated.note (s : Stated) (option : ValueOption) (value : String) : Except Refusal Stated :=
  match option with
  | .output =>
    match s.output, Format.ofName? value with
    | none, some format => .ok { s with output := some format }
    | _, _ => .error .usage
  | .facts =>
    if s.facts.isNone ∧ value ≠ "" then .ok { s with facts := some value } else .error .usage
  | .mode =>
    match s.mode, modeOfName? value with
    | none, some mode => .ok { s with mode := some mode }
    | _, _ => .error .usage
  | .flip => if s.flip.isNone then .ok { s with flip := some value } else .error .usage

/-- Takes note of the quiet flag, which is given once. -/
def Stated.noteQuiet (s : Stated) : Except Refusal Stated :=
  if s.quiet then .error .usage else .ok { s with quiet := true }

/-- Takes note of the subject of a task, of which there is one. -/
def Stated.noteDomain (verb : Option Verb) (s : Stated) (value : String) : Except Refusal Stated :=
  if verb.isSome ∧ s.domain.isNone then .ok { s with domain := some value } else .error .usage

/-- How an argument reads by itself. -/
inductive Token where
  /-- The arguments after this one are no options. -/
  | endOfOptions
  /-- A name after two hyphens, and the value after its equals sign. -/
  | long (name : String) (value : Option String)
  /-- A letter after one hyphen; what comes after it does not matter. -/
  | short (letter : Char)
  /-- Anything else, a single hyphen among it. -/
  | plain (text : String)

/-- Reads one argument. -/
def Token.ofArgument (argument : String) : Token :=
  match argument.toList with
  | ['-', '-'] => endOfOptions
  | '-' :: '-' :: chars =>
    long (String.ofList (chars.takeWhile (· != '=')))
      (match chars.dropWhile (· != '=') with
        | _ :: value => some (String.ofList value)
        | [] => none)
  | '-' :: letter :: _ => short letter
  | _ => plain argument

/-- What a letter after one hyphen asks for. -/
def shortOption (verb : Option Verb) : Char → Refusal
  | 'h' => .help
  | 'V' => if verb.isNone then .version else .usage
  | _ => .usage

/-- The options without a value. -/
inductive Flag where
  | quiet | help | version
deriving DecidableEq

/-- The flag of a name. -/
def Flag.ofName? (verb : Option Verb) (name : String) : Option Flag :=
  match name with
  | "quiet" => some quiet
  | "help" => some help
  | "version" => if verb.isNone then some version else none
  | _ => none

/-- Asks for the description of the command or of one of its tasks. -/
def helpFor : List String → Refusal
  | [] => .help
  | [name] => if (Verb.ofName? name).isSome ∨ name = "help" then .help else .usage
  | _ => .usage

/-- The end of a place, and what is left after the name of a task. -/
abbrev Place : Type := Stated × Option (Verb × List String)

/-- Reads the arguments in one place. Before the task, the place ends with the name of the task,
and the arguments after it are left. -/
def readPlace (verb : Option Verb) (s : Stated) : List String → Except Refusal Place
  | [] => .ok (s, none)
  | argument :: rest =>
    match Token.ofArgument argument with
    | .endOfOptions => do
      let s ← rest.foldlM (Stated.noteDomain verb) s
      pure (s, none)
    | .short letter => .error (shortOption verb letter)
    | .long name (some value) =>
      match ValueOption.ofName? verb name with
      | some option => do
        let s ← s.note option value
        readPlace verb s rest
      | none => .error .usage
    | .long name none =>
      match Flag.ofName? verb name with
      | some .quiet => do
        let s ← s.noteQuiet
        readPlace verb s rest
      | some .help => .error .help
      | some .version => .error .version
      | none =>
        match ValueOption.ofName? verb name, rest with
        | some option, value :: rest =>
          match Token.ofArgument value with
          | .plain value => do
            let s ← s.note option value
            readPlace verb s rest
          | _ => .error .usage
        | _, _ => .error .usage
    | .plain text =>
      match verb with
      | some _ => do
        let s ← s.noteDomain verb text
        readPlace verb s rest
      | none =>
        match Verb.ofName? text with
        | some found => .ok (s, some (found, rest))
        | none => .error (if text = "help" then helpFor rest else .usage)

/-- The task that was asked for, if nothing that it needs is missing. -/
def Stated.task? (s : Stated) (verb : Verb) : Option Task := do
  let domain ← s.domain
  match verb with
  | .verify => some (.verify domain (← s.facts) (s.mode.getD .hard))
  | .program => some (.program domain (← s.facts))
  | .probe => some (.probe domain (← s.facts) (← s.flip) (s.mode.getD .hard))
  | .policy => some (.policy domain)

/-- Reads the arguments of the command. A format that is stated twice counts where it stands
last. -/
def Invocation.ofArguments (arguments : List String) : Except Refusal Invocation := do
  let (outer, rest) ← readPlace none {} arguments
  match rest with
  | none => throw .usage
  | some (verb, rest) =>
    let (inner, _) ← readPlace (some verb) {} rest
    match inner.task? verb with
    | none => throw .usage
    | some task =>
      return { format := (inner.output.or outer.output).getD .text
               quiet := outer.quiet || inner.quiet
               task := task }

end Verdict.Command
