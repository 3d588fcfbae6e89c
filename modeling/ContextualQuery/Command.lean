import ContextualQuery.Check
import ContextualQuery.Command.Arguments
import ContextualQuery.Diagnostic.Xml
import ContextualQuery.Event
import ContextualQuery.Json.Printer
import ContextualQuery.Manual
import ContextualQuery.Settings.File

/-! The command: what it is asked by its arguments, and what it answers.

        [-v] check [-v] [-c PATH] [-f text|json] [--syntax-only] [--xml] [QUERY]
        [-v] diagnostics [-v]
        [-v] docs [-v] [TOPIC]
        --version -/

namespace ContextualQuery.Command

/-! ### Requests -/

/-- What a check is asked to do. A query that is not among the arguments comes from the input. -/
structure CheckRequest where
  query : Option String := none
  config : Option String := none
  parseOnly : Bool := false
  asJson : Bool := false
  asXml : Bool := false

/-- What the command is asked to do. -/
inductive Request where
  | check (request : CheckRequest)
  | diagnostics
  | manual (topic : Option String)
  | version

/-- The operand of a subcommand that has at most one. -/
def operand? : List String → Option (Option String)
  | [] => some none
  | [operand] => some (some operand)
  | _ => none

/-- What a check is asked by its arguments. -/
def CheckRequest.ofArguments? (a : Arguments) : Option CheckRequest := do
  return {
    query := ← operand? a.operands
    config := a.value? .config
    parseOnly := a.has .parseOnly
    asJson := a.value? .format == some "json"
    asXml := a.has .xml }

/-- A request, and whether the events on the way to its answer are to be shown. -/
structure Invocation where
  request : Request
  verbose : Bool := false

/-- What a subcommand is asked by the arguments behind it. -/
def Invocation.ofSubcommand? (name : String) (args : List String) : Option Invocation := do
  if name = "check" then
    let a ← Arguments.ofList [.verbose, .config, .format, .parseOnly, .xml] args
    return { request := .check (← CheckRequest.ofArguments? a), verbose := a.has .verbose }
  else if name = "diagnostics" then
    let a ← Arguments.ofList [.verbose] args
    if a.operands.isEmpty then return { request := .diagnostics, verbose := a.has .verbose }
    else none
  else if name = "docs" then
    let a ← Arguments.ofList [.verbose] args
    return { request := .manual (← operand? a.operands), verbose := a.has .verbose }
  else none

/-- What the command is asked by its arguments, some being taken. The question for the version is
    answered as soon as it is met. -/
def Invocation.ofArgsAfter? (a : Arguments) : List String → Option Invocation
  | [] => none
  | arg :: rest =>
    if looksLikeOption arg then do
      let a ← a.take [.verbose, .version] arg
      if a.operandsOnly then none
      else if a.has .version then some { request := .version }
      else Invocation.ofArgsAfter? a rest
    else do
      let i ← Invocation.ofSubcommand? arg rest
      return { i with verbose := i.verbose || a.has .verbose }

/-- What the command is asked by its arguments; none if they make no sense. -/
def Invocation.ofArgs? (args : List String) : Option Invocation := Invocation.ofArgsAfter? {} args

/-- The path of the file that has to be read to answer a request. -/
def Request.path? : Request → Option String
  | .check request => request.config
  | _ => none

/-! ### Failures -/

/-- Why a request cannot be answered. -/
inductive Failure where
  | refused (reason : Diagnostic)
  | settings (problem : Settings.FileProblem)
  | output (defect : Json.Defect)
  | input (reason : String)
  | noQuery
  | unknownTopic (name : String)

/-- The reason in words. -/
def Failure.message : Failure → String
  | .refused d => d.line
  | .settings problem => problem.message
  | .output _ => "JSON output error"
  | .input reason => "IO error: " ++ reason
  | .noQuery => "No query provided. Pass it as an argument or pipe it to stdin."
  | .unknownTopic name =>
    "Unknown topic: '" ++ name ++ "'\nRun 'cql docs' to see available topics."

/-! ### Answers -/

/-- What the command writes, and its exit status. -/
structure Answer where
  status : Nat := 0
  output : String := ""
  errors : String := ""

/-- The answer when arguments make no sense. -/
def Answer.misuse : Answer := { status := 2 }

/-- The answer when a request fails, with what is written all the same. -/
def Answer.failed (failure : Failure) (output : String := "") : Answer :=
  { status := 1, output, errors := failure.message ++ "\n" }

/-- The page on a topic; the overview where none is asked for. -/
def manualPage : Option String → Except Failure String
  | none => .ok Manual.overview
  | some name =>
    match Manual.Topic.ofName? name with
    | some topic => .ok topic.page
    | none => .error (.unknownTopic name)

/-- A text without the ends of lines behind it. -/
def dropLineEnds (s : String) : String :=
  String.ofList (s.toList.reverse.dropWhile fun c => c == '\n' || c == '\r').reverse

/-- What is to be read from outside to answer a request: the input, `none` where nobody can give
    any, and what reading the file of the request gave. -/
structure World where
  input : Option ByteArray := some .empty
  file : Except ReadError String := .error .notFound

/-- The text of a query that is not among the arguments. -/
def World.query (w : World) : Except Failure String :=
  match w.input with
  | none => .error .noQuery
  | some bytes =>
    match String.fromUTF8? bytes with
    | some text => .ok (dropLineEnds text)
    | none => .error (.input ReadError.notText.message)

namespace CheckRequest

/-- The text that a request is about. -/
def source (r : CheckRequest) (w : World) : Except Failure String :=
  match r.query with
  | some query => .ok query
  | none => w.query

/-- The settings that a request is to be answered with. -/
def settings (r : CheckRequest) (w : World) : Except Failure Settings :=
  match r.config with
  | some path => (Settings.ofFile path w.file).mapError .settings
  | none => .ok {}

/-- How an outcome is written. -/
def render (r : CheckRequest) (outcome : Outcome) : String :=
  if r.asJson then outcome.json.pretty ++ "\n" else outcome.text

/-- The outcome of a check. The text is asked for before the settings. -/
def run (r : CheckRequest) (w : World) : Except Failure Outcome := do
  let source ← r.source w
  let settings ← r.settings w
  (check settings r.parseOnly source).mapError .refused

/-- The answer to a request. On demand a refusal is also written as a response document. -/
def answer (r : CheckRequest) (w : World) : Answer :=
  match r.run w with
  | .ok outcome => { output := r.render outcome }
  | .error (.refused d) => .failed (.refused d) (if r.asXml then d.xml else "")
  | .error failure => .failed failure

/-- The events on the way to the answer. -/
def events (r : CheckRequest) (w : World) : List Event :=
  match r.source w, r.settings w with
  | .ok source, .ok settings =>
    let events := Event.ofRun settings.rules settings.fields source
    if r.parseOnly then events.take 1 else events
  | _, _ => []

end CheckRequest

/-- The events on the way to the answer to a request. -/
def Request.events (w : World) : Request → List Event
  | .check request => request.events w
  | _ => []

/-- The answer to a request. -/
def Request.answer (w : World) : Request → Answer
  | .check request => request.answer w
  | .diagnostics => { output := Manual.diagnostics }
  | .manual topic =>
    match manualPage topic with
    | .ok page => { output := page }
    | .error failure => .failed failure
  | .version => { output := "cql 0.2.0\n" }

end ContextualQuery.Command
