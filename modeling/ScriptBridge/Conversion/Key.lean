import ScriptBridge.Native.DeclaredType
import ScriptBridge.Native.Value
import ScriptBridge.Number.Format
import ScriptBridge.Number.Reader

/-! # Keys of maps

The entries of a script map have names; the keys of a native map are values.

* `Native.Value.propertyName?` is the name that stands for a key, for the keys that have one.
* `DeclaredType.readKey?` is the key of a declared type that a name stands for.
-/

namespace ScriptBridge
set_option autoImplicit false

/-- The name that stands for a native key. -/
def Native.Value.propertyName? : Native.Value → Option Utf16
  | string s => some (.ofString s)
  | u16string s => some s
  | integer i => some (.ofString (toString i.toInt))
  | number x => if x.isFinite then some (.ofString x.display) else none
  | bool b => some (.ofString (toString b))
  | variant _ value => value.propertyName?
  | script (.string s) => some s
  | _ => none

namespace DeclaredType

/-- The integer that a name is the canonical text of. -/
def integerKey? (key : Utf16) : Option Int64 := key.toString?.bind Number.readInt64?

mutual

/-- The key that a name stands for, under a declared type. -/
def readKey? (key : Utf16) : DeclaredType → Option Native.Value
  | any => some (.script (.string key))
  | string => key.toString?.map .string
  | u16string => some (.u16string key)
  | integer => (integerKey? key).map .integer
  | bounded _ min max => ((integerKey? key).filter fun i => min ≤ i && i ≤ max).map .integer
  | number => ((key.toString?.bind Number.readBinary64?).filter Binary64.isFinite).map .number
  | bool =>
    if key.toString? = some "true" then some (.bool true)
    else if key.toString? = some "false" then some (.bool false)
    else none
  | optional inner => readKey? key inner
  | variant alternatives => readKeyAs? key 0 alternatives
  | _ => none

/-- The key under the first alternative that has one; the alternatives are numbered from `index`. -/
def readKeyAs? (key : Utf16) (index : Nat) : List DeclaredType → Option Native.Value
  | [] => none
  | t :: rest =>
    match readKey? key t with
    | some k => some (.variant index k)
    | none => readKeyAs? key (index + 1) rest

end

end DeclaredType
end ScriptBridge
