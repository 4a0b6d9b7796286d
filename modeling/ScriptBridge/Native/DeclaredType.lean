/-! # Declared types

A `DeclaredType` is what a parameter, a property or an element of a container is declared to be.
Conversion from script is driven by it alone.

* `DeclaredType.display` is its text in diagnostics.
* `DeclaredType.nesting` counts the layers that count toward the depth of a conversion.
-/

namespace ScriptBridge
set_option autoImplicit false

inductive DeclaredType where
  /-- Every script value, passed through as it is. -/
  | any
  /-- Null or undefined. -/
  | null
  | bool
  | integer
  /-- An integer between two bounds, reported under a name. -/
  | bounded (name : String) (min max : Int64)
  /-- A number; integers are accepted and widened. -/
  | number
  | string
  | u16string
  | symbol
  /-- An array of this length. -/
  | tuple (items : List DeclaredType)
  /-- The first alternative that accepts the value. -/
  | variant (alternatives : List DeclaredType)
  | list (element : DeclaredType)
  | map (key value : DeclaredType)
  /-- An array read as distinct elements. -/
  | set (element : DeclaredType)
  /-- Undefined, null, or the type under it. -/
  | optional (inner : DeclaredType)
  /-- A wrapper of the class or of one that derives from it. -/
  | object (className : String)
  | function
deriving BEq, Repr, Inhabited

namespace DeclaredType

mutual

def display : DeclaredType → String
  | any => "Value"
  | null => "Null"
  | bool => "Boolean"
  | integer => "Integer"
  | bounded name _ _ => name
  | number => "Number"
  | string => "String"
  | u16string => "String"
  | symbol => "Symbol"
  | tuple items => "[" ++ ", ".intercalate (displayItems items) ++ "]"
  | variant alternatives => "(" ++ " | ".intercalate (displayItems alternatives) ++ ")"
  | list element => "Array<" ++ element.display ++ ">"
  | map key value => "Object<" ++ key.display ++ ", " ++ value.display ++ ">"
  | set element => "Set<" ++ element.display ++ ">"
  | optional inner => inner.display ++ "?"
  | object className => className
  | function => "Function"

def displayItems : List DeclaredType → List String
  | [] => []
  | t :: rest => t.display :: displayItems rest

end

mutual

/-- The layers of containers and variants around the deepest part of a type. An optional adds none,
and the key type of a map counts no layer of its own. -/
def nesting : DeclaredType → Nat
  | tuple items => nestingOfItems items + 1
  | variant alternatives => nestingOfItems alternatives + 1
  | list element => element.nesting + 1
  | map _ value => value.nesting + 1
  | set element => element.nesting + 1
  | optional inner => inner.nesting
  | _ => 0

def nestingOfItems : List DeclaredType → Nat
  | [] => 0
  | t :: rest => max t.nesting (nestingOfItems rest)

end

end DeclaredType
end ScriptBridge
