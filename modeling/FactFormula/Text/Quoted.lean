import FactFormula.Text.Hidden

/-! Texts as messages quote them: between double quotes, with whatever cannot be seen spelled out. -/
namespace FactFormula.Text

def hexDigits (n : Nat) : List Char := Nat.toDigits 16 n

/-- How a character stands inside a quoted text. -/
def quotedChar (c : Char) : List Char :=
  match c with
  | '"' => ['\\', '"']
  | '\\' => ['\\', '\\']
  | '\n' => ['\\', 'n']
  | '\r' => ['\\', 'r']
  | '\t' => ['\\', 't']
  | '\x00' => ['\\', '0']
  | c => if isHidden c then '\\' :: 'u' :: '{' :: hexDigits c.toNat ++ ['}'] else [c]

def quoted (s : String) : String :=
  String.ofList ('"' :: s.toList.flatMap quotedChar ++ ['"'])

example : quotedChar '\x7f' = ['\\', 'u', '{', '7', 'f', '}'] := by decide +kernel

end FactFormula.Text
