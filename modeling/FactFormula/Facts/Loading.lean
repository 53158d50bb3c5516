import FactFormula.Facts.Store
import FactFormula.Files.Tree

/-! Fact stores from JSON tables: as three texts, or as three files of a directory. -/
namespace FactFormula
open Json

inductive TableName where
  | securities
  | attributes
  | facts
  deriving DecidableEq

def TableName.text : TableName → String
  | .securities => "securities"
  | .attributes => "attributes"
  | .facts => "facts"

def TableName.fileName (t : TableName) : String := t.text ++ ".json"

inductive StoreError where
  | duplicate (e : DuplicateError)
  | malformed (table : TableName) (e : Json.Error)
  | unreadable (path : String) (e : ReadError)
  deriving DecidableEq

def StoreError.text : StoreError → String
  | .duplicate e => e.text
  | .malformed table e => "invalid " ++ table.text ++ " table: " ++ e.text
  | .unreadable path e => "failed to read " ++ path ++ ": " ++ e.text

namespace FactStore

def ofRows (securities : List Security) (attributes : List Attribute) (facts : List Fact) :
    Except StoreError FactStore :=
  (ofTables securities attributes facts).mapError .duplicate

def readTable (row : Format α) (table : TableName) (text : String) : Except StoreError (List α) :=
  ((Format.list row).ofText text).mapError (.malformed table)

/-- The store of three JSON lists of rows. -/
def ofTexts (securities attributes facts : String) : Except StoreError FactStore := do
  let s ← readTable Security.format .securities securities
  let a ← readTable Attribute.format .attributes attributes
  let f ← readTable Fact.format .facts facts
  ofRows s a f

def readFile (files : Files) (dir : String) (table : TableName) : Except StoreError String :=
  let path := joinPath dir table.fileName
  (files.readText path).mapError (.unreadable path)

/-- The store of a directory. All files are read before any of them is understood. -/
def load (files : Files) (dir : String) : Except StoreError FactStore := do
  let securities ← readFile files dir .securities
  let attributes ← readFile files dir .attributes
  let facts ← readFile files dir .facts
  ofTexts securities attributes facts

end FactStore

end FactFormula
