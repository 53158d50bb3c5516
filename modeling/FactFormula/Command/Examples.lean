/-! Documents to try the commands on, among them some that are broken on purpose. -/
namespace FactFormula.Command

structure Example where
  id : String
  label : String
  text : String

namespace Example

def all : List Example := [
  { id := "multiply"
    label := "Simple multiplication"
    text := "\x7b
  \"expression\": \x7b\"fn\": \"*\", \"a\": \"sales\", \"b\": 2\x7d,
  \"security\": \"ABC\"
\x7d" },
  { id := "divide"
    label := "Simple division"
    text := "\x7b
  \"expression\": \x7b\"fn\": \"/\", \"a\": \"price\", \"b\": \"eps\"\x7d,
  \"security\": \"BCD\"
\x7d" },
  { id := "nested"
    label := "Nested expression"
    text := "\x7b
  \"expression\": \x7b
    \"fn\": \"-\",
    \"a\": \x7b\"fn\": \"-\", \"a\": \"eps\", \"b\": \"shares\"\x7d,
    \"b\": \x7b\"fn\": \"-\", \"a\": \"assets\", \"b\": \"liabilities\"\x7d
  \x7d,
  \"security\": \"CDE\"
\x7d" },
  { id := "invalid-json"
    label := "Invalid JSON"
    text := "\x7b
  \"expression\": \x7b\"fn\": \"+\", \"a\": \"price\", \"b\": \"eps\"\x7d,
  \"security\": \"BCD\"
" },
  { id := "invalid-dsl"
    label := "Invalid DSL"
    text := "\x7b
  \"wrong\": 123,
  \"security\": \"BCD\"
\x7d" },
  { id := "missing-security"
    label := "Missing security"
    text := "\x7b
  \"expression\": \x7b\"fn\": \"*\", \"a\": \"sales\", \"b\": 2\x7d,
  \"security\": \"ZZZ\"
\x7d" }]

def find? (id : String) : Option Example := all.find? (·.id == id)

/-- The length of the longest id. -/
def width : Nat := (all.map (·.id.length)).foldl max 0

/-- An id, filled up to the longest, and its label. -/
def line (e : Example) : String :=
  e.id ++ String.ofList (List.replicate (width - e.id.length) ' ') ++ "  " ++ e.label

end Example

end FactFormula.Command
