import FactFormula.Json.Fault

/-!
Strings in JSON: how they are written, how they are read, and how they are passed over. Reading
gives back what was written (`readQuoted_escape`).
-/
namespace FactFormula.Json

def hexDigit (n : Nat) : Char := Nat.digitChar n

/-- How a character stands inside a string. Only quotes, backslashes and controls are escaped. -/
def escapeChar (c : Char) : List Char :=
  match c with
  | '"' => ['\\', '"']
  | '\\' => ['\\', '\\']
  | '\x08' => ['\\', 'b']
  | '\x0c' => ['\\', 'f']
  | '\n' => ['\\', 'n']
  | '\r' => ['\\', 'r']
  | '\t' => ['\\', 't']
  | c =>
    if c < ' ' then ['\\', 'u', '0', '0', hexDigit (c.toNat / 16), hexDigit (c.toNat % 16)]
    else [c]

def escape (s : List Char) : List Char := s.flatMap escapeChar

/-- The written form of a string. -/
def quote (s : List Char) : List Char := '"' :: escape s ++ ['"']

/-- What a backslash and one letter stand for. -/
def unescape (c : Char) : Option Char :=
  match c with
  | '"' => some '"'
  | '\\' => some '\\'
  | '/' => some '/'
  | 'b' => some '\x08'
  | 'f' => some '\x0c'
  | 'n' => some '\n'
  | 'r' => some '\r'
  | 't' => some '\t'
  | _ => none

def hexValue (c : Char) : Option Nat :=
  if c.isDigit then some (c.toNat - '0'.toNat)
  else if 'a' ≤ c ∧ c ≤ 'f' then some (c.toNat - 'a'.toNat + 10)
  else if 'A' ≤ c ∧ c ≤ 'F' then some (c.toNat - 'A'.toNat + 10)
  else none

/-- The code unit that four hexadecimal digits spell. -/
def codeUnit (a b c d : Char) : Option Nat := do
  let a ← hexValue a
  let b ← hexValue b
  let c ← hexValue c
  let d ← hexValue d
  return ((a * 16 + b) * 16 + c) * 16 + d

def isLeading (u : Nat) : Bool := 0xd800 ≤ u && u ≤ 0xdbff

def isTrailing (u : Nat) : Bool := 0xdc00 ≤ u && u ≤ 0xdfff

/-- The character of a leading and a trailing code unit. -/
def joinUnits (leading trailing : Nat) : Char :=
  Char.ofNat ((leading - 0xd800) * 0x400 + (trailing - 0xdc00) + 0x10000)

/-- The fault of four bytes that are not hexadecimal digits, or of fewer than four bytes. -/
def hexFault (s : List Char) : Fault :=
  if byteCount s < 4 then .placed .stringEnded 0 else .placed .invalidEscape (byteCount s - 4)

def prepend (c : Char) : Except Fault (List Char × List Char) → Except Fault (List Char × List Char)
  | .ok (s, rest) => .ok (c :: s, rest)
  | .error f => .error f

/-- Reads the inside of a string and its closing quote. -/
def readQuoted : List Char → Except Fault (List Char × List Char)
  | [] => .error (after .stringEnded [])
  | '"' :: rest => .ok ([], rest)
  | '\\' :: 'u' :: a :: b :: c :: d :: rest =>
    match codeUnit a b c d with
    | none => .error (hexFault (a :: b :: c :: d :: rest))
    | some u =>
      if isTrailing u then .error (after .loneSurrogate rest)
      else if isLeading u then
        match rest with
        | '\\' :: 'u' :: a :: b :: c :: d :: rest =>
          match codeUnit a b c d with
          | none => .error (hexFault (a :: b :: c :: d :: rest))
          | some w =>
            if isTrailing w then prepend (joinUnits u w) (readQuoted rest)
            else .error (after .loneSurrogate rest)
        | '\\' :: 'u' :: rest => .error (hexFault rest)
        | [] | ['\\'] => .error (after .stringEnded [])
        | '\\' :: rest => .error (peeked .hexEscapeEnded rest)
        | rest => .error (peeked .hexEscapeEnded rest)
      else prepend (Char.ofNat u) (readQuoted rest)
  | '\\' :: 'u' :: rest => .error (hexFault rest)
  | ['\\'] => .error (after .stringEnded [])
  | '\\' :: e :: rest =>
    match unescape e with
    | some c => prepend c (readQuoted rest)
    | none => .error (peeked .invalidEscape (e :: rest))
  | c :: rest =>
    if c < ' ' then .error (after .controlCharacter rest) else prepend c (readQuoted rest)

/-- Passes over the inside of a string and its closing quote. Escapes only have to be spelled
right; which characters they make does not matter. -/
def skipQuoted : List Char → Except Fault (List Char)
  | [] => .error (after .stringEnded [])
  | '"' :: rest => .ok rest
  | '\\' :: 'u' :: a :: b :: c :: d :: rest =>
    if (codeUnit a b c d).isSome then skipQuoted rest
    else .error (hexFault (a :: b :: c :: d :: rest))
  | '\\' :: 'u' :: rest => .error (hexFault rest)
  | ['\\'] => .error (after .stringEnded [])
  | '\\' :: e :: rest =>
    if (unescape e).isSome then skipQuoted rest else .error (peeked .invalidEscape (e :: rest))
  | c :: rest => if c < ' ' then .error (after .controlCharacter (c :: rest)) else skipQuoted rest

theorem codeUnit_control (n : Fin 32) :
    codeUnit '0' '0' (hexDigit (n / 16)) (hexDigit (n % 16)) = some n := by
  revert n
  decide

theorem readQuoted_plain {c : Char} (hq : c ≠ '"') (hb : c ≠ '\\') (hc : ¬ c < ' ')
    (rest : List Char) : readQuoted (c :: rest) = prepend c (readQuoted rest) := by
  rw [readQuoted, if_neg hc] <;> simp [hq, hb]

/-- A character is read back from its escape, whatever follows. -/
theorem readQuoted_escapeChar (c : Char) (rest : List Char) :
    readQuoted (escapeChar c ++ rest) = prepend c (readQuoted rest) := by
  unfold escapeChar
  split
  any_goals simp [readQuoted, unescape]
  split
  · rename_i h
    have hu := codeUnit_control ⟨c.toNat, h⟩
    have ht : isTrailing c.toNat = false := by
      have : c.toNat < 32 := h
      simp [isTrailing]
      omega
    have hl : isLeading c.toNat = false := by
      have : c.toNat < 32 := h
      simp [isLeading]
      omega
    simp only at hu
    simp [readQuoted, hu, ht, hl, Char.ofNat_toNat]
  · rename_i h
    exact readQuoted_plain ‹_› ‹_› h rest

theorem readQuoted_escape (s rest : List Char) :
    readQuoted (escape s ++ '"' :: rest) = .ok (s, rest) := by
  induction s with
  | nil => rfl
  | cons c s ih =>
    simp only [escape, List.flatMap_cons, List.append_assoc] at ih ⊢
    rw [readQuoted_escapeChar, ih]
    rfl

end FactFormula.Json
