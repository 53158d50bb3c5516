import FactFormula.Check
import FactFormula.Evaluation.Run
import FactFormula.Expression.Parsing
import FactFormula.Facts.Loading

/-! How a command fails: the message, and the code the program exits with. -/
namespace FactFormula.Command

/-- Trouble with standard input or output. -/
inductive StreamError where
  | input (e : ReadError)
  | brokenPipe
  deriving DecidableEq

def StreamError.text : StreamError → String
  | .input e => e.text
  | .brokenPipe => "broken pipe"

inductive Failure where
  | unreadable (path : String) (e : ReadError)
  | stream (e : StreamError)
  | store (e : StoreError)
  | document (e : DocumentError)
  | unknownExample (id : String)
  | problems (ps : List Problem)
  | evaluation (e : EvaluationFailure)
  deriving DecidableEq

namespace Failure

def text : Failure → String
  | .unreadable path e => "failed to read " ++ path ++ ": " ++ e.text
  | .stream e => e.text
  | .store e => e.text
  | .document e => e.text
  | .unknownExample id => "unknown example: " ++ id
  | .problems ps => "document has " ++ Json.natText ps.length ++ " problem(s)"
  | .evaluation e => e.text

def exitCode : Failure → Nat
  | .unreadable _ _ => 1
  | .stream _ => 1
  | .store _ => 2
  | .document _ => 3
  | .unknownExample _ => 3
  | .problems _ => 3
  | .evaluation _ => 4

end Failure

end FactFormula.Command
