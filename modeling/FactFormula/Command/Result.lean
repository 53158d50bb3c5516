import FactFormula.Command.Arguments
import FactFormula.Command.Examples
import FactFormula.Command.Failure
import FactFormula.Expression.Dependencies
import FactFormula.Facts.Bundled

/-!
What a command comes to, before anything is written: the lines for standard output, the failure it
ends with, and the log. The document is read before the tables are.
-/
namespace FactFormula.Command

structure Environment where
  files : Files
  stdin : ByteArray

inductive Entry where
  | evaluation (e : Event)
  | bundledTables
  | tablesLoaded (dir : String) (securities attributes facts : Nat)
  | problem (p : Problem)
  deriving DecidableEq

def Entry.message : Entry → Message
  | .evaluation e => e.message
  | .bundledTables => ⟨.info, "using bundled fact tables", []⟩
  | .tablesLoaded dir securities attributes facts =>
    ⟨.info, "fact store loaded",
      [("dir", .text dir), ("securities", .text (Json.natText securities)),
        ("attributes", .text (Json.natText attributes)), ("facts", .text (Json.natText facts))]⟩
  | .problem p => ⟨.debug, "evaluation failed", [("problem", .text p.text)]⟩

structure Result where
  lines : List String
  failure : Option Failure
  log : List Entry

def Result.failed (f : Failure) : Result := ⟨[], some f, []⟩

def Result.logged (log : List Entry) (r : Result) : Result := { r with log := log ++ r.log }

/-- The text of the document. Standard input is read if nothing else is named. -/
def Input.readText (env : Environment) (input : Input) : Except Failure String :=
  match input.file, input.exampleId, input.document with
  | some path, _, _ => (env.files.readText path).mapError (.unreadable path)
  | none, some id, _ =>
    match Example.find? id with
    | some e => .ok e.text
    | none => .error (.unknownExample id)
  | none, none, some text => .ok text
  | none, none, none => (decodeText env.stdin).mapError fun e => .stream (.input e)

def Input.readDocument (env : Environment) (input : Input) : Except Failure Document := do
  (Document.ofText (← input.readText env)).mapError .document

def loadTables (env : Environment) : Option String → List Entry × Except StoreError FactStore
  | none => ([.bundledTables], Bundled.store)
  | some dir =>
    match FactStore.load env.files dir with
    | .error e => ([], .error e)
    | .ok store =>
      ([.tablesLoaded dir store.securities.length store.attributes.length store.factCount],
        .ok store)

/-- A command on a document. -/
def onDocument (env : Environment) (input : Input) (command : Document → Result) : Result :=
  match input.readDocument env with
  | .error f => .failed f
  | .ok d => command d

/-- A command on a document and tables. -/
def onTables (env : Environment) (dataDir : Option String) (input : Input)
    (command : Document → FactStore → Result) : Result :=
  onDocument env input fun d =>
    match loadTables env dataDir with
    | (log, .error e) => (Result.failed (.store e)).logged log
    | (log, .ok store) => (command d store).logged log

/-- The value, or the problems for the log. -/
def evalResult (d : Document) (store : FactStore) : Result :=
  let run := d.run store.source .builtins
  let log := run.events.map Entry.evaluation
  match run.outcome with
  | .ok x => ⟨[Decimal.result.text x], none, log⟩
  | .error e =>
    let problems := d.problems store.catalog OperatorRegistry.builtins.operatorSet
    ⟨[], some (.evaluation e), log ++ problems.map Entry.problem⟩

/-- A line for each problem. -/
def checkResult (d : Document) (store : FactStore) : Result :=
  match d.problems store.catalog OperatorRegistry.builtins.operatorSet with
  | [] => ⟨["ok"], none, []⟩
  | problems => ⟨problems.map Problem.text, some (.problems problems), []⟩

def inspectResult (d : Document) : Result :=
  let names := d.expression.dependencies
  { lines := [
      "security: " ++ d.security,
      "depth: " ++ Json.natText d.expression.depth,
      "attributes: " ++ ", ".intercalate names.attributeList,
      "operators: " ++ ", ".intercalate names.operatorList,
      "hash: " ++ d.expression.hash]
    failure := none
    log := [] }

def examplesResult : Result := ⟨Example.all.map Example.line, none, []⟩

def Invocation.result (env : Environment) (i : Invocation) : Result :=
  match i.verb with
  | .eval => onTables env i.dataDir i.input evalResult
  | .check => onTables env i.dataDir i.input checkResult
  | .inspect => onDocument env i.input inspectResult
  | .examples => examplesResult

/-- All files that the command may read. -/
def Invocation.paths (i : Invocation) : List String :=
  let tables (dir : String) : List String :=
    [TableName.securities, .attributes, .facts].map fun t => joinPath dir t.fileName
  match i.verb with
  | .examples => []
  | .inspect => i.input.file.toList
  | .eval | .check => i.input.file.toList ++ (i.dataDir.map tables).getD []

/-- Whether the command reads standard input. -/
def Invocation.readsStdin (i : Invocation) : Bool :=
  i.verb != .examples && i.input.named.isEmpty

end FactFormula.Command
