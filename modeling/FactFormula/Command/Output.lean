import FactFormula.Command.Result

/-!
Writing what a command comes to. Standard output may break off after some number of bytes; the
write that crosses it is taken in part. A command whose output breaks off has failed for that
reason. An evaluation failure is written to standard output, and to standard error if that cannot
take it; other failures are diagnostics on standard error.
-/
namespace FactFormula.Command

/-- Standard output, with the bytes it has taken and the number it will still take, if limited. -/
structure Sink where
  taken : List UInt8
  room : Option Nat
  deriving DecidableEq

def lineBytes (s : String) : List UInt8 := (s ++ "\n").toUTF8.toList

namespace Sink

def ofLimit (limit : Option Nat) : Sink := ⟨[], limit⟩

/-- Writes as much as there is room for; tells whether that was all. -/
def write (s : Sink) (bytes : List UInt8) : Bool × Sink :=
  match s.room with
  | none => (true, ⟨s.taken ++ bytes, none⟩)
  | some n => (bytes.length ≤ n, ⟨s.taken ++ bytes.take n, some (n - bytes.length)⟩)

/-- Writes lines up to the first that is not taken whole. -/
def writeLines (s : Sink) : List String → Bool × Sink
  | [] => (true, s)
  | line :: rest =>
    match s.write (lineBytes line) with
    | (true, s) => s.writeLines rest
    | (false, s) => (false, s)

end Sink

/-- What a run of the program leaves behind. -/
structure Output where
  failure : Option Failure
  stdout : List UInt8
  stderr : String
  log : List Entry

def Output.exitCode (o : Output) : Nat :=
  match o.failure with
  | none => 0
  | some f => f.exitCode

/-- Writes the message of a failure. -/
def report (s : Sink) : Failure → Sink × String
  | .evaluation e =>
    match s.write (lineBytes e.text) with
    | (true, s) => (s, "")
    | (false, s) => (s, e.text ++ "\n")
  | f => (s, "error: " ++ f.text ++ "\n")

def Result.output (limit : Option Nat) (r : Result) : Output :=
  let (whole, s) := (Sink.ofLimit limit).writeLines r.lines
  match if whole then r.failure else some (.stream .brokenPipe) with
  | none => ⟨none, s.taken, "", r.log⟩
  | some f =>
    let (s, stderr) := report s f
    ⟨some f, s.taken, stderr, r.log⟩

def Invocation.output (env : Environment) (limit : Option Nat) (i : Invocation) : Output :=
  (i.result env).output limit

end FactFormula.Command
