/-!
The command line. `--data-dir` and `--verbose` may stand before and behind the name of a command;
what stands behind it counts. A document comes from one place at most.
-/
namespace FactFormula.Command

inductive Verb where
  | eval
  | check
  | inspect
  | examples
  deriving DecidableEq, Repr

def Verb.ofName? (s : String) : Option Verb :=
  if s = "eval" then some .eval
  else if s = "check" then some .check
  else if s = "inspect" then some .inspect
  else if s = "examples" then some .examples
  else none

/-- The places that a document can come from. -/
inductive Source where
  | file
  | exampleId
  | document
  deriving DecidableEq, Repr

/-- The sources that cannot be named along with one. A pair is listed once. -/
def Source.conflicts : Source → List Source
  | .file => [.exampleId, .document]
  | .exampleId => [.document]
  | .document => []

/-- Where the document comes from; if from nowhere, it is read from standard input. -/
structure Input where
  file : Option String
  exampleId : Option String
  document : Option String
  deriving DecidableEq

/-- What is named for a source. -/
def Input.at? (i : Input) : Source → Option String
  | .file => i.file
  | .exampleId => i.exampleId
  | .document => i.document

/-- The sources that are named, with their names. -/
def Input.named (i : Input) : List (Source × String) :=
  [Source.file, .exampleId, .document].filterMap fun source => (i.at? source).map (source, ·)

/-- Whether a source is named along with one that it conflicts with. -/
def Input.conflicting (i : Input) : Bool :=
  i.named.any fun (source, _) => source.conflicts.any fun other => (i.at? other).isSome

structure Invocation where
  verb : Verb
  input : Input
  dataDir : Option String
  verbose : Bool
  deriving DecidableEq

inductive UsageError where
  | helpAsked
  | nothingGiven
  | missingCommand
  | unknownCommand
  | unknownArgument
  | invalidValue
  | tooManyValues
  | conflict
  deriving DecidableEq, Repr

def UsageError.exitCode : UsageError → Nat
  | .helpAsked => 0
  | _ => 2

/-- Options with a value. -/
inductive Key where
  | dataDir
  | file
  | exampleId
  deriving DecidableEq, Repr

inductive Switch where
  | help
  | verbose
  | key (k : Key)
  deriving DecidableEq, Repr

/-- The part of the command line that is read: before the name of a command, behind that of a
command that takes a document, or behind that of one that takes none. -/
inductive Scope where
  | outer
  | document
  | plain
  deriving DecidableEq, Repr

def Verb.scope : Verb → Scope
  | .examples => .plain
  | _ => .document

def Scope.short? (scope : Scope) (c : Char) : Option Switch :=
  if c = 'h' then some .help
  else if c = 'v' then some .verbose
  else if scope = .document ∧ c = 'f' then some (.key .file)
  else if scope = .document ∧ c = 'e' then some (.key .exampleId)
  else none

def Scope.long? (scope : Scope) (name : String) : Option Switch :=
  if name = "help" then some .help
  else if name = "verbose" then some .verbose
  else if name = "data-dir" then some (.key .dataDir)
  else if scope = .document ∧ name = "file" then some (.key .file)
  else if scope = .document ∧ name = "example" then some (.key .exampleId)
  else none

/-- An option whose value has not been taken in, and perhaps not even been met. -/
structure Pending where
  key : Key
  value : Option String
  deriving DecidableEq

/-- What has been read in one scope. -/
structure Scan where
  input : Input
  dataDir : Option String
  verbose : Bool
  pending : Option Pending
  /-- Behind `--` nothing is an option. -/
  trailing : Bool
  deriving DecidableEq

namespace Scan

def start : Scan := ⟨⟨none, none, none⟩, none, false, none, false⟩

def get (s : Scan) : Key → Option String
  | .dataDir => s.dataDir
  | .file => s.input.file
  | .exampleId => s.input.exampleId

def set (s : Scan) (value : String) : Key → Scan
  | .dataDir => { s with dataDir := some value }
  | .file => { s with input.file := some value }
  | .exampleId => { s with input.exampleId := some value }

/-- An option is given once in a scope, and a path is not empty. -/
def put (s : Scan) (key : Key) (value : String) : Except UsageError Scan :=
  if (s.get key).isSome then .error .conflict
  else if value = "" ∧ key ≠ .exampleId then .error .invalidValue
  else .ok (s.set value key)

/-- Takes in the value of the option that is waiting. -/
def settle (s : Scan) : Except UsageError Scan :=
  match s.pending with
  | none => .ok s
  | some ⟨_, none⟩ => .error .invalidValue
  | some ⟨key, some value⟩ => { s with pending := none }.put key value

/-- Whether the next word is the value of an option. -/
def isAwaiting (s : Scan) : Bool :=
  match s.pending with
  | some ⟨_, none⟩ => true
  | _ => false

/-- An option with the value that is attached to it, or to come. -/
def option (s : Scan) (key : Key) (value : Option String) : Except UsageError Scan := do
  let s ← s.settle
  match value with
  | some v => s.put key v
  | none => return { s with pending := some ⟨key, none⟩ }

def setVerbose (s : Scan) : Except UsageError Scan := do
  let s ← s.settle
  if s.verbose then .error .conflict else return { s with verbose := true }

def askHelp (s : Scan) : Except UsageError Scan := do
  let _ ← s.settle
  .error .helpAsked

/-- Options of one letter behind one dash. The first with a value takes all that follows, less an
equals sign. -/
def shorts (scope : Scope) (s : Scan) : List Char → Except UsageError Scan
  | [] => .ok s
  | c :: rest =>
    match scope.short? c with
    | none => .error .unknownArgument
    | some .help => s.askHelp
    | some .verbose => do shorts scope (← s.setVerbose) rest
    | some (.key k) =>
      match rest with
      | [] => s.option k none
      | '=' :: value => s.option k (some (String.ofList value))
      | value => s.option k (some (String.ofList value))

/-- A name and what follows its first equals sign. -/
def splitName (cs : List Char) : String × Option String :=
  let name := String.ofList (cs.takeWhile (· != '='))
  match cs.dropWhile (· != '=') with
  | [] => (name, none)
  | _ :: value => (name, some (String.ofList value))

/-- An option behind two dashes. -/
def long (scope : Scope) (s : Scan) (cs : List Char) : Except UsageError Scan :=
  let (name, value) := splitName cs
  match scope.long? name with
  | none => .error .unknownArgument
  | some (.key k) => s.option k value
  | some .help => if value.isSome then .error .tooManyValues else s.askHelp
  | some .verbose => if value.isSome then .error .tooManyValues else s.setVerbose

/-- A word that is neither an option nor the value of one. -/
def word (scope : Scope) (s : Scan) (arg : String) : Except UsageError Scan :=
  match scope with
  | .outer =>
    if s.trailing ∧ ((Verb.ofName? arg).isSome ∨ arg = "help") then .error .unknownArgument
    else .error .unknownCommand
  | .plain => .error .unknownArgument
  | .document =>
    if s.input.document.isSome then .error .unknownArgument
    else do
      let s ← s.settle
      return { s with input.document := some arg }

/-- Takes in one argument. -/
def step (scope : Scope) (s : Scan) (arg : String) : Except UsageError Scan :=
  if s.trailing then s.word scope arg
  else
    match arg.toList with
    | ['-', '-'] => .ok { s with trailing := true }
    | '-' :: '-' :: cs => s.long scope cs
    | '-' :: c :: cs => s.shorts scope (c :: cs)
    | _ =>
      match s.pending with
      | some ⟨key, none⟩ => .ok { s with pending := some ⟨key, some arg⟩ }
      | _ => s.word scope arg

/-- The end of a scope. -/
def finish (s : Scan) : Except UsageError Scan := do
  let s ← s.settle
  if s.input.conflicting then .error .conflict else return s

end Scan

/-- The arguments behind the name of a command. -/
def scanInner (scope : Scope) (args : List String) : Except UsageError Scan := do
  (← args.foldlM (Scan.step scope) .start).finish

/-- `help` is followed by nothing or by the name of a command. -/
def helpError : List String → UsageError
  | [] => .helpAsked
  | [name] =>
    if (Verb.ofName? name).isSome ∨ name = "help" then .helpAsked else .unknownCommand
  | _ => .unknownCommand

/-- What stands behind the name counts. -/
def merge (verb : Verb) (outer inner : Scan) : Invocation :=
  ⟨verb, inner.input, inner.dataDir.or outer.dataDir, outer.verbose || inner.verbose⟩

/-- The arguments from the first one on that has not been taken in by `s`. -/
def scanOuter (s : Scan) : List String → Except UsageError Invocation
  | [] => do
    let s ← s.settle
    if s.dataDir.isNone ∧ ¬ s.verbose then .error .nothingGiven else .error .missingCommand
  | arg :: rest =>
    if s.trailing ∨ s.isAwaiting then do scanOuter (← s.step .outer arg) rest
    else if arg = "help" then .error (helpError rest)
    else
      match Verb.ofName? arg with
      | some verb => do
        let inner ← scanInner verb.scope rest
        return merge verb (← s.settle) inner
      | none => do scanOuter (← s.step .outer arg) rest

/-- Reads the arguments of the program, without its name. -/
def Invocation.ofArgs (args : List String) : Except UsageError Invocation := scanOuter .start args

end FactFormula.Command
