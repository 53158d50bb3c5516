import FactFormula.Json.Mismatch

/-! Why a text is refused, and where. -/
namespace FactFormula.Json

inductive Cause where
  | listEnded
  | objectEnded
  | stringEnded
  | valueEnded
  | expectedColon
  | expectedListEnd
  | expectedObjectEnd
  | expectedIdent
  | expectedValue
  | invalidEscape
  | invalidNumber
  | numberOutOfRange
  | controlCharacter
  | keyNotString
  | loneSurrogate
  | hexEscapeEnded
  | trailingComma
  | trailingCharacters
  | tooDeep
  | mismatch (m : Mismatch)
  deriving DecidableEq

def Cause.text : Cause → String
  | .listEnded => "EOF while parsing a list"
  | .objectEnded => "EOF while parsing an object"
  | .stringEnded => "EOF while parsing a string"
  | .valueEnded => "EOF while parsing a value"
  | .expectedColon => "expected `:`"
  | .expectedListEnd => "expected `,` or `]`"
  | .expectedObjectEnd => "expected `,` or `\x7d`"
  | .expectedIdent => "expected ident"
  | .expectedValue => "expected value"
  | .invalidEscape => "invalid escape"
  | .invalidNumber => "invalid number"
  | .numberOutOfRange => "number out of range"
  | .controlCharacter => "control character (\\u0000-\\u001F) found while parsing a string"
  | .keyNotString => "key must be a string"
  | .loneSurrogate => "lone leading surrogate in hex escape"
  | .hexEscapeEnded => "unexpected end of hex escape"
  | .trailingComma => "trailing comma"
  | .trailingCharacters => "trailing characters"
  | .tooDeep => "recursion limit exceeded"
  | .mismatch m => m.text

def byteCount : List Char → Nat
  | [] => 0
  | c :: s => c.utf8Size + byteCount s

/-- A fault while reading. Its place is told by how much of the text lies behind it. -/
inductive Fault where
  /-- `unread` bytes follow the place of the fault. -/
  | placed (cause : Cause) (unread : Nat)
  /-- The value read last does not fit; `rest` follows it. Whoever asked for it gives the place. -/
  | floating (m : Mismatch) (rest : List Char)

/-- A fault behind the last character taken. -/
def after (cause : Cause) (rest : List Char) : Fault := .placed cause (byteCount rest)

/-- A fault behind the first byte of `rest`, which was looked at and not taken. -/
def peeked (cause : Cause) (rest : List Char) : Fault := .placed cause (byteCount rest - 1)

structure Position where
  line : Nat
  column : Nat
  deriving DecidableEq, Repr

/-- The position `n` bytes further on. Lines end with a line feed; columns count bytes. -/
def Position.advance (p : Position) : List Char → Nat → Position
  | [], _ => p
  | c :: rest, n =>
    if n = 0 then p
    else if c = '\n' then advance ⟨p.line + 1, 0⟩ rest (n - 1)
    else advance ⟨p.line, p.column + min c.utf8Size n⟩ rest (n - c.utf8Size)

/-- A refusal as it is reported. -/
structure Error where
  cause : Cause
  position : Option Position
  deriving DecidableEq

def Error.text (e : Error) : String :=
  match e.position with
  | none => e.cause.text
  | some p => e.cause.text ++ " at line " ++ natText p.line ++ " column " ++ natText p.column

def Fault.toError (text : List Char) : Fault → Error
  | .placed cause unread => ⟨cause, some (Position.advance ⟨1, 0⟩ text (byteCount text - unread))⟩
  | .floating m _ => ⟨.mismatch m, none⟩

def Mismatch.toError (m : Mismatch) : Error := ⟨.mismatch m, none⟩

end FactFormula.Json
