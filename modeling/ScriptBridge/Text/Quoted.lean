import ScriptBridge.Text.Property

/-! # Quoted text

How a text is shown inside a diagnostic: between double quotes, with the characters escaped that
would be ambiguous or invisible. Escaped are the quote and the backslash, the five controls with a
letter of their own, and as `\u` with a hexadecimal code point in braces whatever is not graphic or
attaches to the character before it.
-/

namespace ScriptBridge.Text.Quoted
set_option autoImplicit false

/-- Lower-case hexadecimal digits, without leading zeros. -/
def hexadecimal (n : Nat) : List Char := Nat.toDigits 16 n

def encodeChar (c : Char) : List Char :=
  if c = '"' then ['\\', '"']
  else if c = '\\' then ['\\', '\\']
  else if c = '\n' then ['\\', 'n']
  else if c = '\r' then ['\\', 'r']
  else if c = '\t' then ['\\', 't']
  else if c.toNat = 0 then ['\\', '0']
  else if isGraphic c && !isExtending c then [c]
  else ['\\', 'u', '\x7b'] ++ hexadecimal c.toNat ++ ['\x7d']

/-- The text between quotes. -/
def encode (text : String) : String :=
  String.ofList ('"' :: text.toList.flatMap encodeChar ++ ['"'])

end ScriptBridge.Text.Quoted
