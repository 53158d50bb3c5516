import FactFormula.Json.Printer
import FactFormula.Json.Record

/-! The rows of the three fact tables and their form in JSON. -/
namespace FactFormula
open Json

abbrev SecurityId := UInt32
abbrev AttributeId := UInt32

structure Security where
  id : SecurityId
  symbol : String
  deriving DecidableEq

structure Attribute where
  id : AttributeId
  name : String
  deriving DecidableEq

/-- What is known of one security about one attribute. -/
structure Fact where
  securityId : SecurityId
  attributeId : AttributeId
  value : Float
  deriving DecidableEq

def wordValue (n : UInt32) : Value := .number (.integer n.toNat)

def floatValue (x : Float) : Value := if x.isFinite then .number (.float x) else .null

def Security.toValue (s : Security) : Value :=
  .object [("id", wordValue s.id), ("symbol", .string s.symbol)]

def Attribute.toValue (a : Attribute) : Value :=
  .object [("id", wordValue a.id), ("name", .string a.name)]

def Fact.toValue (f : Fact) : Value :=
  .object [("security_id", wordValue f.securityId), ("attribute_id", wordValue f.attributeId),
    ("value", floatValue f.value)]

/-- A table as a JSON list of its rows. -/
def tableText (row : α → Value) (rows : List α) : String := (Value.array (rows.map row)).text

def Security.record : Record (Option SecurityId × Option String) Security where
  name := "Security"
  fields := [
    Format.word.field "id" (·.1) fun id s => (some id, s.2),
    Format.string.field "symbol" (·.2) fun t s => (s.1, some t)]
  vacant := (none, none)
  build s := do return ⟨← required "id" s.1, ← required "symbol" s.2⟩

def Attribute.record : Record (Option AttributeId × Option String) Attribute where
  name := "Attribute"
  fields := [
    Format.word.field "id" (·.1) fun id s => (some id, s.2),
    Format.string.field "name" (·.2) fun t s => (s.1, some t)]
  vacant := (none, none)
  build s := do return ⟨← required "id" s.1, ← required "name" s.2⟩

def Fact.record : Record (Option SecurityId × Option AttributeId × Option Float) Fact where
  name := "Fact"
  fields := [
    Format.word.field "security_id" (·.1) fun id s => (some id, s.2),
    Format.word.field "attribute_id" (·.2.1) fun id s => (s.1, some id, s.2.2),
    Format.number.field "value" (·.2.2) fun x s => (s.1, s.2.1, some x)]
  vacant := (none, none, none)
  build s := do
    return ⟨← required "security_id" s.1, ← required "attribute_id" s.2.1,
      ← required "value" s.2.2⟩

def Security.format : Format Security := Security.record.format
def Attribute.format : Format Attribute := Attribute.record.format
def Fact.format : Format Fact := Fact.record.format

end FactFormula
