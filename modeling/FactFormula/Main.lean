import FactFormula.Command.Output

/-!
The program. It fetches what the command may read, has the command decide, and writes what that
comes to.
-/
namespace FactFormula.Command

def usage : String :=
  "Usage: facts [--data-dir DIR] [-v] eval|check|inspect [-f FILE | -e EXAMPLE | DOCUMENT]\n" ++
  "       facts examples"

def readError (e : IO.Error) : ReadError :=
  match e with
  | .noFileOrDirectory _ _ _ => .notFound
  | .inappropriateType _ code _ =>
    if code = 20 ∨ code = -20 then .notDirectory else .isDirectory
  | _ => .other (toString e)

def fetch (path : String) : IO (String × Except ReadError ByteArray) := do
  try
    return (path, .ok (← IO.FS.readBinFile path))
  catch e =>
    return (path, .error (readError e))

partial def readAll (stream : IO.FS.Stream) (taken : ByteArray) : IO ByteArray := do
  let bytes ← stream.read 65536
  if bytes.isEmpty then return taken else readAll stream (taken ++ bytes)

def environment (i : Invocation) : IO Environment := do
  let fetched ← i.paths.mapM fetch
  let stdin ← if i.readsStdin then readAll (← IO.getStdin) ByteArray.empty else pure .empty
  return ⟨fun path => (fetched.lookup path).getD (.error .notFound), stdin⟩

def logLine (m : Message) : String :=
  let value : FieldValue → String
    | .text s => s
    | .number x => Decimal.logged.text x
  let level := match m.level with
    | .info => "INFO"
    | .debug => "DEBUG"
    | .trace => "TRACE"
  " ".intercalate ([level, m.text] ++ m.fields.map fun field => field.1 ++ "=" ++ value field.2)

/-- Writes standard output, and tells what is left behind if it breaks off. -/
def writeOut (env : Environment) (i : Invocation) : IO Output := do
  let o := i.output env none
  try
    let stdout ← IO.getStdout
    stdout.write ⟨o.stdout.toArray⟩
    stdout.flush
    return o
  catch _ =>
    return i.output env (some 0)

def invoke (i : Invocation) : IO UInt32 := do
  let env ← environment i
  let o ← writeOut env i
  if i.verbose then
    for e in o.log do
      if e.message.level ≠ .trace then IO.eprintln (logLine e.message)
  IO.eprint o.stderr
  return UInt32.ofNat o.exitCode

end FactFormula.Command

open FactFormula.Command in
def main (args : List String) : IO UInt32 := do
  match Invocation.ofArgs args with
  | .ok i => invoke i
  | .error e =>
    if e = .helpAsked then IO.println usage else IO.eprintln usage
    return UInt32.ofNat e.exitCode
