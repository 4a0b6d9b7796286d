import ScriptBridge.Bridge.Loading
import ScriptBridge.Sample.View

/-! # The module of types

A module with one exported value for every conversion and functions that hand their typed argument
back. `Bridge.installSamples` loads it beside the view class.
-/

namespace ScriptBridge
set_option autoImplicit false

namespace TypesModule

def name : String := "types"

/-- A function that reads its argument as a value of a shape and hands it back. -/
def echo (s : Shape) (args : List Native.Value) : Body Native.Value := do
  return s.toNative (← Body.argument s args 0)

/-- The text or the number, whichever fits. -/
def stringOrNumber : DeclaredType := .variant [.string, .number]

/-- Hands back the last argument as it is. -/
def last (args : List Native.Value) : Body Native.Value := return args.getLast?.getD .undefined

/-- A function of one argument of a shape, under the type that the shape declares. -/
def withEcho (m : Module) (functionName : String) (s : Shape) : Module :=
  m.function functionName s.declared?.toList (echo s)

def integers : Shape := .pair .int64 .int64

def numberExample : Binary64 := .ofRatio .double false 314 100

/-- The module, given the symbol that it exports. -/
def exports (symbol : Symbol) : Module :=
  { name : Module }
    |>.value "value" (.script (.text "value"))
    |>.value "null" .null
    |>.value "integer" (.integer 123)
    |>.value "number" (.number numberExample)
    |>.value "bool" (.bool false)
    |>.value "string" (.string "字符串")
    |>.value "ustring" (.u16string (.ofString "ustring"))
    |>.value "charptr" (.string "チャーポインター")
    |>.value "ucharptr" (.u16string (.ofString "ucharptr"))
    |>.value "symbol" (.symbol symbol)
    |>.value "tuple" (.tuple [.integer 89, .bool true, .string "64"])
    |>.value "pair" (.tuple [.string "a", .string "pair"])
    |>.value "variant" (.variant 1 (.integer 8964))
    |>.value "map" (.map [(.integer 123, .integer 456)])
    |> (withEcho · "passTuple" integers)
    |> (withEcho · "passPair" integers)
    |>.function "passVariant" [stringOrNumber] last
    |> (withEcho · "passSet" (.set .int64))
    |> (withEcho · "passByte" (.int .u8))
    |> (withEcho · "passMap" (.map .string .int64))

def symbolDescription : String := "symbol"

end TypesModule

namespace Bridge

/-- The exported values of the module of types, if it is loaded. -/
def typesExports (b : Bridge) : Script.Value := (b.engine.global? TypesModule.name).getD .undefined

/-- The view class and the module of types installed. -/
def installSamples (b : Bridge) (symbol : Symbol) : Except BridgeError Unit × Bridge :=
  match b.installView with
  | (.error err, b) => (.error err, b)
  | (.ok (), b) =>
    match b.loadModule (TypesModule.exports symbol) with
    | (.error err, b) => (.error err, b)
    | (.ok _, b) => (.ok (), b)

end Bridge
end ScriptBridge
