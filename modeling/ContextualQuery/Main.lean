import ContextualQuery.Command

/-! The command line program. -/

open ContextualQuery Command

/-- What went wrong in reading a file. -/
def readErrorOf : IO.Error → ReadError
  | .noFileOrDirectory .. => .notFound
  | .inappropriateType .. => .isDirectory
  | e => .other (toString e)

/-- The text of the file at a path. -/
def readTextFile (path : String) : IO (Except ReadError String) := do
  if path.isEmpty then return .error .notFound
  try
    match String.fromUTF8? (← IO.FS.readBinFile path) with
    | some text => return .ok text
    | none => return .error .notText
  catch e => return .error (readErrorOf e)

/-- Reads what a request needs from outside. -/
def readWorld (request : Request) : IO World := do
  let input ← match request with
    | .check { query := none, .. } =>
      let stdin ← IO.getStdin
      if ← stdin.isTty then pure none else some <$> stdin.readBinToEnd
    | _ => pure (some .empty)
  let file ← match request.path? with
    | some path => readTextFile path
    | none => pure (.error .notFound)
  return { input, file }

/-- Answers the arguments. -/
def main (args : List String) : IO UInt32 := do
  match Invocation.ofArgs? args with
  | none =>
    IO.eprintln "usage: cql [-v] check|diagnostics|docs ..."
    return Answer.misuse.status.toUInt32
  | some { request, verbose } =>
    let world ← readWorld request
    if verbose then
      for event in request.events world do IO.eprint event.line
    let answer := request.answer world
    IO.print answer.output
    IO.eprint answer.errors
    return answer.status.toUInt32
