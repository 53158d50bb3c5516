import FactFormula.Facts.Loading

/-! The tables that are used when no others are given. -/
namespace FactFormula.Bundled

def securities : String := "[
  \x7b \"id\": 1, \"symbol\": \"ABC\" \x7d,
  \x7b \"id\": 2, \"symbol\": \"BCD\" \x7d,
  \x7b \"id\": 3, \"symbol\": \"CDE\" \x7d
]
"

def attributes : String := "[
  \x7b \"id\": 1, \"name\": \"price\" \x7d,
  \x7b \"id\": 2, \"name\": \"eps\" \x7d,
  \x7b \"id\": 3, \"name\": \"sales\" \x7d,
  \x7b \"id\": 4, \"name\": \"shares\" \x7d,
  \x7b \"id\": 5, \"name\": \"assets\" \x7d,
  \x7b \"id\": 6, \"name\": \"liabilities\" \x7d,
  \x7b \"id\": 7, \"name\": \"dividend\" \x7d
]
"

def facts : String := "[
  \x7b \"security_id\": 1, \"attribute_id\": 1, \"value\": 12 \x7d,
  \x7b \"security_id\": 1, \"attribute_id\": 2, \"value\": 3 \x7d,
  \x7b \"security_id\": 1, \"attribute_id\": 3, \"value\": 4 \x7d,
  \x7b \"security_id\": 1, \"attribute_id\": 4, \"value\": 100 \x7d,
  \x7b \"security_id\": 1, \"attribute_id\": 5, \"value\": 250 \x7d,
  \x7b \"security_id\": 1, \"attribute_id\": 6, \"value\": 50 \x7d,
  \x7b \"security_id\": 1, \"attribute_id\": 7, \"value\": 0.25 \x7d,
  \x7b \"security_id\": 2, \"attribute_id\": 1, \"value\": 4 \x7d,
  \x7b \"security_id\": 2, \"attribute_id\": 2, \"value\": 8 \x7d,
  \x7b \"security_id\": 2, \"attribute_id\": 3, \"value\": 16 \x7d,
  \x7b \"security_id\": 2, \"attribute_id\": 4, \"value\": 40 \x7d,
  \x7b \"security_id\": 2, \"attribute_id\": 5, \"value\": 120 \x7d,
  \x7b \"security_id\": 2, \"attribute_id\": 6, \"value\": 70 \x7d,
  \x7b \"security_id\": 3, \"attribute_id\": 1, \"value\": 7 \x7d,
  \x7b \"security_id\": 3, \"attribute_id\": 2, \"value\": 1 \x7d,
  \x7b \"security_id\": 3, \"attribute_id\": 3, \"value\": 9 \x7d,
  \x7b \"security_id\": 3, \"attribute_id\": 4, \"value\": 2 \x7d,
  \x7b \"security_id\": 3, \"attribute_id\": 5, \"value\": 30 \x7d,
  \x7b \"security_id\": 3, \"attribute_id\": 6, \"value\": 10 \x7d
]
"

def store : Except StoreError FactStore := FactStore.ofTexts securities attributes facts

end FactFormula.Bundled
