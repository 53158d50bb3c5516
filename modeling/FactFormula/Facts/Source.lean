import FactFormula.Facts.Table

/-! What an evaluation asks for: ids by name, and values by ids. -/
namespace FactFormula

/-- A question that no row answers. -/
inductive LookupError where
  | unknownSecurity (symbol : String)
  | unknownAttribute (name : String)
  | missingFact (securityId : SecurityId) (attributeId : AttributeId)
  deriving DecidableEq

def wordText (n : UInt32) : String := Json.natText n.toNat

def LookupError.text : LookupError → String
  | .unknownSecurity symbol => "unknown security: " ++ symbol
  | .unknownAttribute name => "unknown attribute: " ++ name
  | .missingFact securityId attributeId =>
    "no fact for security " ++ wordText securityId ++ ", attribute " ++ wordText attributeId

structure FactSource where
  securityId : String → Except LookupError SecurityId
  attributeId : String → Except LookupError AttributeId
  factValue : SecurityId → AttributeId → Except LookupError Float

/-- The names that something answers to. -/
structure Catalog where
  hasSecurity : String → Bool
  hasAttribute : String → Bool

end FactFormula
