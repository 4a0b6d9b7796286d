import ScriptBridge.Native.Value
import ScriptBridge.Script.Printer

/-! # The text of a native value

`Native.Value.diagnostic` names the constructor of every value and shows its contents. The identity
of an instance and the serial number of a symbol are left out, since neither means anything to a
reader.
-/

namespace ScriptBridge
set_option autoImplicit false

def WeakHandle.diagnostic (h : WeakHandle) : String :=
  "WeakHandle \x7b id: " ++ h.id.diagnostic ++ ", kind: " ++ h.kind.diagnostic ++ " \x7d"

def InstanceHandle.diagnostic (o : InstanceHandle) : String :=
  "NativeObject(" ++ o.className ++ " @ 0x_)"

namespace Native.Value

mutual

def diagnostic : Value → String
  | undefined => "Undefined"
  | null => "Null"
  | bool b => "Bool(" ++ toString b ++ ")"
  | integer i => "Integer(" ++ toString i.toInt ++ ")"
  | number x => "Number(" ++ x.diagnostic ++ ")"
  | string s => "String(" ++ Text.Quoted.encode s ++ ")"
  | u16string s => "U16String(U16String([" ++ ", ".intercalate (s.units.map toString) ++ "]))"
  | symbol s => "Symbol(" ++ s.diagnostic ++ ")"
  | tuple items => "Tuple([" ++ ", ".intercalate (diagnosticItems items) ++ "])"
  | variant index value =>
    "Variant \x7b index: " ++ toString index ++ ", value: " ++ value.diagnostic ++ " \x7d"
  | list items => "List([" ++ ", ".intercalate (diagnosticItems items) ++ "])"
  | map entries => "Map([" ++ ", ".intercalate (diagnosticEntries entries) ++ "])"
  | set items => "Set([" ++ ", ".intercalate (diagnosticItems items) ++ "])"
  | object o => "Object(" ++ o.diagnostic ++ ")"
  | function id => "Function(" ++ id.diagnostic ++ ")"
  | weakFunction h => "WeakFunction(" ++ h.diagnostic ++ ")"
  | script v => "Script(" ++ v.diagnostic ++ ")"

def diagnosticItems : List Value → List String
  | [] => []
  | v :: rest => v.diagnostic :: diagnosticItems rest

def diagnosticEntries : List (Value × Value) → List String
  | [] => []
  | (k, v) :: rest => ("(" ++ k.diagnostic ++ ", " ++ v.diagnostic ++ ")") :: diagnosticEntries rest

end

end Native.Value
end ScriptBridge
