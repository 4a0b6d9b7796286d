import ScriptBridge.Sample.Routine

/-! # Blueprints

Descriptions of classes over records and of modules, in terms of routines, and what is built from
them.
-/

namespace ScriptBridge
set_option autoImplicit false

/-! ## Classes -/

/-- What a constructor makes. -/
inductive Product where
  /-- A record of the arguments. -/
  | record (fragile : Bool)
  | view
  | failure (text : String)
deriving Repr, Inhabited

structure MethodBlueprint where
  name : String
  params : List DeclaredType := []
  policy : CallPolicy := .none
  routine : Routine := .undefined
  /-- Whether the receiver is left alone. -/
  onScratch : Bool := false

structure AccessorBlueprint where
  name : String
  /-- What can be assigned, if anything. -/
  type? : Option DeclaredType := none
  /-- Why an assignment fails, if it does. -/
  failure? : Option String := none

structure ClassBlueprint where
  name : String
  base? : Option String := none
  constructor? : Option (List DeclaredType × Product) := none
  methods : List MethodBlueprint := []
  accessors : List AccessorBlueprint := []
  /-- How the finalizer ends, if there is one. -/
  finalizer? : Option Verdict := none

namespace ClassBlueprint

def construct (product : Product) (args : List Native.Value) : Body Seed :=
  match product with
  | .record fragile => return .record args fragile
  | .view => return .view
  | .failure text => throw (.native text)

def addMethod (c : NativeClass) (m : MethodBlueprint) : NativeClass :=
  if m.onScratch then
    c.method m.name m.params m.policy fun this _ args => m.routine.onScratch (some this) args
  else c.instanceMethod .record m.name m.params m.policy m.routine.onReceiver

/-- The value of a field; undefined if it was never assigned. -/
def field (name : String) (r : Record) : Native.Value := (r.fields.find? name).getD .undefined

def assignField (a : AccessorBlueprint) (r : Record) (v : Native.Value) :
    Record × Except BridgeError Unit :=
  match a.failure? with
  | some text => (r, .error (.native text))
  | none => ({ r with fields := r.fields.insert a.name v }, .ok ())

def addAccessor (c : NativeClass) (a : AccessorBlueprint) : NativeClass :=
  match a.type? with
  | some type => c.accessor .record a.name type (field a.name) (assignField a)
  | none => c.getter .record a.name (field a.name)

/-- A finalizer that reports the record and ends as it is told. -/
def finalize (className : String) (verdict : Verdict) (r : Record) : Finalization .record where
  events := [.finalized className r.serial]
  verdict := verdict

def build (p : ClassBlueprint) : NativeClass :=
  let c : NativeClass := { name := p.name, base? := p.base? }
  let c := match p.constructor? with
    | some (params, product) => c.withConstructor params (construct product)
    | none => c
  let c := p.methods.foldl addMethod c
  let c := p.accessors.foldl addAccessor c
  match p.finalizer? with
  | some verdict => c.withFinalizer .record (finalize p.name verdict)
  | none => c

end ClassBlueprint

/-! ## Modules -/

structure FunctionBlueprint where
  name : String
  params : List DeclaredType := []
  routine : Routine := .undefined

/-- A module of values and of functions without a receiver. -/
def Module.ofBlueprint (name : String) (values : List (String × Native.Value))
    (functions : List FunctionBlueprint) : Module :=
  functions.foldl (fun m f => m.function f.name f.params (f.routine.onScratch none))
    { name, values }

end ScriptBridge
