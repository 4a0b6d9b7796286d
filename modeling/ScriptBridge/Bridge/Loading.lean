import ScriptBridge.Conversion.ToScript

/-! # Loading modules

Loading a module converts its values in a scope of its own and publishes them as a global map under
the name of the module. If a value cannot be converted, nothing is published and the module is not
registered.
-/

namespace ScriptBridge.Bridge
set_option autoImplicit false

/-- Runs `f` in a handle scope, which closes however `f` ends. -/
def withScope {α : Type} (b : Bridge) (f : Bridge → α × Bridge) : α × Bridge :=
  let (a, b) := f b.openScope
  (a, b.closeScope)

/-- The exported values under their names. -/
def convertExports : List (String × Native.Value) → Action (List (Utf16 × Script.Value))
  | [] => return []
  | (name, n) :: rest => do
    let v ← n.toScript
    return (.ofString name, v) :: (← convertExports rest)

def loadModule (b : Bridge) (m : Module) : Except BridgeError Script.Value × Bridge :=
  let (exports, b) := b.withScope (convertExports m.values).run
  match exports with
  | .error err => (.error err, b)
  | .ok entries =>
    let b := b.mapEngine (·.setGlobal m.name (.map entries))
    (.ok (.map entries), { b with modules := b.modules.insert m.name m })

end ScriptBridge.Bridge
