import ScriptBridge.Program

/-! # Modules

A module exports values, converted once when it is loaded and published as a global map, and
functions, called by module and name or by a symbolic name that joins the two with a dot.
-/

namespace ScriptBridge
set_option autoImplicit false

structure ModuleFunction where
  name : String
  params : List DeclaredType
  body : List Native.Value → Body Native.Value

structure Module where
  name : String
  values : List (String × Native.Value) := []
  functions : Table String ModuleFunction := .empty

namespace Module

def value (m : Module) (name : String) (v : Native.Value) : Module :=
  { m with values := m.values ++ [(name, v)] }

/-- A later function of a name replaces the earlier. -/
def function (m : Module) (name : String) (params : List DeclaredType)
    (body : List Native.Value → Body Native.Value) : Module :=
  { m with functions := m.functions.insert name ⟨name, params, body⟩ }

def symbol (m : Module) (name : String) : String := m.name ++ "." ++ name

def symbols (m : Module) : List String := (m.functions.keys.map m.symbol).mergeSort (· ≤ ·)

def instances (m : Module) : List InstanceId := m.values.flatMap fun (_, v) => v.instances

end Module

/-- A symbolic name split at its first dot. -/
def splitSymbol? (symbol : String) : Option (String × String) :=
  let cs := symbol.toList
  match cs.dropWhile (· ≠ '.') with
  | [] => none
  | _ :: name => some (String.ofList (cs.takeWhile (· ≠ '.')), String.ofList name)

end ScriptBridge
