import ScriptBridge.Number.Format
import ScriptBridge.Script.Value
import ScriptBridge.Text.Quoted

/-! # The text of a script value

`Script.Value.display` is the text shown to a reader; `Script.Value.diagnostic` names the
constructor of every value and shows all that tells two values apart, except the serial number of a
symbol.
-/

namespace ScriptBridge
set_option autoImplicit false

def ObjectKind.diagnostic : ObjectKind → String
  | .wrapper => "Wrapper"
  | .function => "Function"

def ObjectId.diagnostic (id : ObjectId) : String :=
  "ObjectId \x7b index: " ++ toString id.index ++ ", generation: " ++ toString id.generation
    ++ " \x7d"

def Symbol.diagnostic (s : Symbol) : String :=
  "Symbol \x7b id: _, description: " ++ Text.Quoted.encode s.description ++ " \x7d"

def Utf16.diagnostic (s : Utf16) : String := Text.Quoted.encode s.lossy

namespace Script.Value

mutual

def display : Value → String
  | undefined => "undefined"
  | null => "null"
  | bool b => toString b
  | int i => toString i.toInt
  | float x => x.display
  | string s => "'" ++ s.lossy ++ "'"
  | symbol s => "Symbol(" ++ s.description ++ ")"
  | array items => "[" ++ ", ".intercalate (displayItems items) ++ "]"
  | map entries => "\x7b" ++ ", ".intercalate (displayEntries entries) ++ "\x7d"
  | wrapper id => "[object " ++ id.toText ++ "]"
  | function id => "[function " ++ id.toText ++ "]"

def displayItems : List Value → List String
  | [] => []
  | v :: rest => v.display :: displayItems rest

def displayEntries : List (Utf16 × Value) → List String
  | [] => []
  | (k, v) :: rest => (k.diagnostic ++ ": " ++ v.display) :: displayEntries rest

end

mutual

def diagnostic : Value → String
  | undefined => "Undefined"
  | null => "Null"
  | bool b => "Bool(" ++ toString b ++ ")"
  | int i => "Int(" ++ toString i.toInt ++ ")"
  | float x => "Float(" ++ x.diagnostic ++ ")"
  | string s => "String(" ++ s.diagnostic ++ ")"
  | symbol s => "Symbol(" ++ s.diagnostic ++ ")"
  | array items => "Array([" ++ ", ".intercalate (diagnosticItems items) ++ "])"
  | map entries => "Map([" ++ ", ".intercalate (diagnosticEntries entries) ++ "])"
  | wrapper id => "Wrapper(" ++ id.diagnostic ++ ")"
  | function id => "Function(" ++ id.diagnostic ++ ")"

def diagnosticItems : List Value → List String
  | [] => []
  | v :: rest => v.diagnostic :: diagnosticItems rest

def diagnosticEntries : List (Utf16 × Value) → List String
  | [] => []
  | (k, v) :: rest => ("(" ++ k.diagnostic ++ ", " ++ v.diagnostic ++ ")") :: diagnosticEntries rest

end

end Script.Value
end ScriptBridge
