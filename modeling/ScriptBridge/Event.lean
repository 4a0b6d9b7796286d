import ScriptBridge.Error

/-! # The journal

What a bridge does to the world outside is written to a journal: a host finalizer or a class
finalizer ran, a script function reported its arguments, or something went wrong that no caller is
told of. Entries are kept in the order in which they happened.
-/

namespace ScriptBridge
set_option autoImplicit false

/-- Trouble that is only reported. -/
inductive Warning where
  | unmatchedClose
  | hostFinalizerPanicked (id : ObjectId)
  | finalizerFailed (className : String) (id : ObjectId) (error : BridgeError)
  | finalizerPanicked (className : String) (id : ObjectId)
  | dropPanicked (className : String) (id : ObjectId)
deriving Repr

def Warning.message : Warning → String
  | unmatchedClose => "roots: close_scope without a matching open_scope"
  | hostFinalizerPanicked id => s!"gc: finalizer for {id.toText} panicked"
  | finalizerFailed className id error =>
    s!"finalize: {className} finalizer for {id.toText} failed: {error.message}"
  | finalizerPanicked className id => s!"finalize: {className} finalizer for {id.toText} panicked"
  | dropPanicked className id =>
    s!"finalize: dropping {className} instance for {id.toText} panicked"

inductive Event where
  | collected (text : String)
  /-- A script function ran and reported the texts of its arguments. -/
  | called (text : String) (arguments : List String)
  /-- The finalizer of a class ran on the instance with this serial number. -/
  | finalized (className : String) (serial : Nat)
  | warned (warning : Warning)
deriving Repr

end ScriptBridge
