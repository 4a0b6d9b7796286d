import ScriptBridge.Error
import ScriptBridge.Native.Value
import ScriptBridge.Table

/-! # Native instances

The instances that native code owns, each with its payload and its loan: whether it is lent out for
reading, or to one body for changing. Three kinds of payload exist: a `View` holds child views
strongly and listeners weakly, a `Record` holds values by position and by name, and a word is a bare
number.

* `Instances.create` makes an instance from a `Seed`; views and records are numbered from one.
* `Instances.read` and `Instances.lend` give out a payload of a kind, or say why they cannot.
* `Payload.instances` lists the instances a payload holds.
-/

namespace ScriptBridge
set_option autoImplicit false

/-! ## Payloads -/

/-- A view owns its children; it is told of a listener's end by nobody. -/
structure View where
  serial : Nat
  children : List InstanceHandle := []
  listeners : List WeakHandle := []
deriving DecidableEq, Repr, Inhabited

structure Record where
  serial : Nat
  slots : List Native.Value := []
  fields : Table String Native.Value := .empty
  /-- Whether dropping the record may panic. -/
  fragile : Bool := false
deriving Inhabited

inductive Kind where
  | view
  | record
  | word
deriving DecidableEq, Repr, Inhabited

abbrev KindNames := Kind → String

abbrev Kind.Carrier : Kind → Type
  | view => View
  | record => Record
  | word => UInt32

structure Payload where
  kind : Kind
  content : kind.Carrier

namespace Payload

def view (v : View) : Payload := ⟨.view, v⟩

def record (r : Record) : Payload := ⟨.record, r⟩

def word (n : UInt32) : Payload := ⟨.word, n⟩

/-- The content, if it is of this kind. -/
def as? (p : Payload) (k : Kind) : Option k.Carrier :=
  if h : p.kind = k then some (h ▸ p.content) else none

def instances : Payload → List InstanceId
  | ⟨.view, v⟩ => v.children.map (·.identity)
  | ⟨.record, r⟩ => (r.slots ++ r.fields.values).flatMap Native.Value.instances
  | ⟨.word, _⟩ => []

def isFragile : Payload → Bool
  | ⟨.record, r⟩ => r.fragile
  | _ => false

end Payload

/-! ## Instances -/

inductive Loan where
  | free
  | shared
  /-- Lent out to one body for changing. -/
  | exclusive
deriving DecidableEq, Repr, Inhabited

structure Instance where
  payload : Payload
  loan : Loan := .free

/-- What a new instance is made from. -/
inductive Seed where
  | view
  | record (slots : List Native.Value) (fragile : Bool)
  | word (n : UInt32)

/-- Every instance ever made; the position of one is its identity. -/
structure Instances where
  cells : List Instance := []
deriving Inhabited

namespace Instances

def get? (t : Instances) (id : InstanceId) : Option Instance := t.cells[id.index]?

def nextSerial (t : Instances) (k : Kind) : Nat := t.cells.countP (fun c => c.payload.kind = k) + 1

def payloadOf (t : Instances) : Seed → Payload
  | .view => .view { serial := t.nextSerial .view }
  | .record slots fragile => .record { serial := t.nextSerial .record, slots, fragile }
  | .word n => .word n

def create (t : Instances) (className : String) (seed : Seed) : InstanceHandle × Instances :=
  (⟨className, ⟨t.cells.length⟩⟩, ⟨t.cells ++ [⟨t.payloadOf seed, .free⟩]⟩)

def update (t : Instances) (id : InstanceId) (f : Instance → Instance) : Instances :=
  ⟨t.cells.modify id.index f⟩

/-! ## Lending -/

/-- The instance behind a handle with its content of a kind. -/
def open? (t : Instances) (names : KindNames) (o : InstanceHandle) (k : Kind) :
    Except BridgeError (Loan × k.Carrier) :=
  match t.get? o.identity with
  | some c => match c.payload.as? k with
    | some content => .ok (c.loan, content)
    | none => .error (.typeMismatch (names k) o.className)
  | none => .error (.typeMismatch (names k) o.className)

/-- The content of an instance that is not lent out for changing. -/
def read (t : Instances) (names : KindNames) (o : InstanceHandle) (k : Kind) :
    Except BridgeError k.Carrier := do
  let (loan, content) ← t.open? names o k
  if loan = .exclusive then throw (.native s!"{o.className} instance is mutably borrowed")
  return content

/-- The content of an instance that is not lent out at all, to be changed. -/
def take (t : Instances) (names : KindNames) (o : InstanceHandle) (k : Kind) :
    Except BridgeError k.Carrier := do
  let (loan, content) ← t.open? names o k
  if loan ≠ .free then throw (.native s!"{o.className} instance is already borrowed")
  return content

def setLoan (t : Instances) (o : InstanceHandle) (loan : Loan) : Instances :=
  t.update o.identity fun c => { c with loan }

def setPayload (t : Instances) (o : InstanceHandle) (payload : Payload) : Instances :=
  t.update o.identity fun c => { c with payload }

/-- An instance lent out for changing. -/
def lend (t : Instances) (names : KindNames) (o : InstanceHandle) (k : Kind) :
    Except BridgeError k.Carrier × Instances :=
  match t.take names o k with
  | .ok content => (.ok content, t.setLoan o .exclusive)
  | .error err => (.error err, t)

/-- The end of a loan, with what has become of the payload. -/
def giveBack (t : Instances) (o : InstanceHandle) (payload : Payload) : Instances :=
  t.update o.identity fun _ => ⟨payload, .free⟩

/-! ## Ownership among instances -/

/-- The instances that neither an owner nor an instance outside `lost` holds. -/
def unheld (t : Instances) (owners lost : List InstanceId) : List InstanceId :=
  let all := (List.range t.cells.length).map InstanceId.mk
  let held := owners ++ (all.filter fun id => !lost.contains id).flatMap fun id =>
    match t.get? id with
    | some c => c.payload.instances
    | none => []
  all.filter fun id => !held.contains id

/-- The lost instances with those that are lost in turn, in at most so many rounds. -/
def spreadLoss (t : Instances) (owners : List InstanceId) : Nat → List InstanceId → List InstanceId
  | 0, lost => lost
  | rounds + 1, lost =>
    let next := t.unheld owners lost
    if next = lost then lost else t.spreadLoss owners rounds next

/-- The instances that have been dropped: those that neither an owner nor an instance that is not
dropped holds. An instance on a cycle is never dropped, since another one on it holds it. -/
def dropped (t : Instances) (owners : List InstanceId) : List InstanceId :=
  t.spreadLoss owners t.cells.length []

def isFragile (t : Instances) (id : InstanceId) : Bool :=
  match t.get? id with
  | some c => c.payload.isFragile
  | none => false

end Instances
end ScriptBridge
