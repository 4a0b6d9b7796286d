import ScriptBridge.Conversion.ToScript
import ScriptBridge.Proofs.Bridge.Identity
import ScriptBridge.Proofs.Sequences

/-! # What a conversion to script answers

`Native.Value.Becomes` says that a value is converted to a given script value and that the bridge is
left as it is. It is told for every kind of value from its parts, for maps where the entries get
different names. Sets stand apart, as they drop what their elements repeat.
-/

namespace ScriptBridge
set_option autoImplicit false

theorem setEntry_of_new {name : Utf16} {es : List (Utf16 × Script.Value)}
    (h : name ∉ es.map (·.1)) (v : Script.Value) : setEntry name v es = es ++ [(name, v)] := by
  induction es with
  | nil => rfl
  | cons e rest ih =>
    rw [List.map_cons, List.mem_cons, not_or] at h
    rw [setEntry, if_neg (Ne.symm h.1), ih h.2, List.cons_append]

namespace Native.Value

variable {b : Bridge} {depth : Nat} {n : Value} {v : Script.Value}

/-- At the depth, the value is converted to `v`, and the bridge is left as it is. -/
def Becomes (b : Bridge) (depth : Nat) (n : Value) (v : Script.Value) : Prop :=
  (n.toScriptAt depth).run b = (.ok v, b)

/-! ## Steps -/

theorem run_within {α : Type} (h : depth ≤ b.options.maxDepth) (x : Action α) :
    (Action.within depth x).run b = x.run b := by
  rw [Action.run_within, if_neg (Nat.not_lt.2 h)]

theorem run_bind_of_ok {α β : Type} {x : Action α} {a : α} (h : x.run b = (.ok a, b))
    (f : α → Action β) : (x >>= f).run b = (f a).run b := by
  rw [Action.run_bind, h]

/-- A step of a conversion and what is made of its outcome. -/
theorem run_map_within {α : Type} {x : Action α} {a : α} (hdepth : depth ≤ b.options.maxDepth)
    (h : x.run b = (.ok a, b)) (f : α → Script.Value) :
    (Action.within depth (x >>= fun a => pure (f a))).run b = (.ok (f a), b) := by
  rw [run_within hdepth, run_bind_of_ok h]
  rfl

/-! ## Parts -/

theorem run_itemsToScript {ns : List Value} {vs : List Script.Value}
    (h : List.Forall₂ (Becomes b depth) ns vs) :
    (itemsToScript depth ns).run b = (.ok vs, b) := by
  induction h with
  | nil => rfl
  | @cons n v ns vs hn _ ih =>
    refine (run_bind_of_ok hn _).trans ?_
    exact (run_bind_of_ok ih fun vs => pure (v :: vs)).trans rfl

theorem run_entriesToScript {ps : List (Value × Value)}
    {es converted : List (Utf16 × Script.Value)}
    (h : List.Forall₂ (fun p e => p.1.propertyName? = some e.1 ∧ Becomes b depth p.2 e.2) ps es)
    (hdistinct : ((converted ++ es).map (·.1)).Nodup) :
    (entriesToScript depth converted ps).run b = (.ok (converted ++ es), b) := by
  induction h generalizing converted with
  | nil => rw [List.append_nil]; rfl
  | @cons p e ps es hp _ ih =>
    have hnew : setEntry e.1 e.2 converted = converted ++ [e] := by
      refine setEntry_of_new (fun hmem => ?_) e.2
      rw [List.map_append, List.nodup_append] at hdistinct
      exact hdistinct.2.2 _ hmem _ List.mem_cons_self rfl
    unfold entriesToScript
    rw [hp.1]
    refine (run_bind_of_ok hp.2 _).trans ?_
    rw [hnew]
    rw [List.append_cons converted e es] at hdistinct ⊢
    exact ih hdistinct

/-! ## Values -/

section
variable (hdepth : depth ≤ b.options.maxDepth)
include hdepth

theorem becomes_undefined : Becomes b depth .undefined .undefined := run_within hdepth _

theorem becomes_null : Becomes b depth .null .null := run_within hdepth _

theorem becomes_bool (x : Bool) : Becomes b depth (.bool x) (.bool x) := run_within hdepth _

theorem becomes_integer (i : Int64) : Becomes b depth (.integer i) (.int i) := run_within hdepth _

theorem becomes_number (x : Binary64) : Becomes b depth (.number x) (.float x) :=
  run_within hdepth _

theorem becomes_string (s : String) : Becomes b depth (.string s) (.text s) := run_within hdepth _

theorem becomes_u16string (s : Utf16) : Becomes b depth (.u16string s) (.string s) :=
  run_within hdepth _

theorem becomes_symbol (s : Symbol) : Becomes b depth (.symbol s) (.symbol s) :=
  run_within hdepth _

theorem becomes_function (id : ObjectId) : Becomes b depth (.function id) (.function id) :=
  run_within hdepth _

theorem becomes_script (v : Script.Value) : Becomes b depth (.script v) v := run_within hdepth _

theorem becomes_variant (h : Becomes b depth n v) (index : Nat) :
    Becomes b depth (.variant index n) v :=
  (run_within hdepth _).trans h

theorem becomes_object {o : InstanceHandle} {w : ObjectId} (h : b.Bound o w) :
    Becomes b depth (.object o) (.wrapper w) := by
  refine run_map_within hdepth ?_ _
  have hrun : (Action.step (·.wrap o) : Action ObjectId).run b =
      (.ok (b.wrap o).1, (b.wrap o).2) := rfl
  rw [hrun, Bridge.wrap_of_bound h]

theorem becomes_tuple {ns : List Value} {vs : List Script.Value}
    (h : List.Forall₂ (Becomes b (depth + 1)) ns vs) : Becomes b depth (.tuple ns) (.array vs) :=
  run_map_within hdepth (run_itemsToScript h) _

theorem becomes_list {ns : List Value} {vs : List Script.Value}
    (h : List.Forall₂ (Becomes b (depth + 1)) ns vs) : Becomes b depth (.list ns) (.array vs) :=
  run_map_within hdepth (run_itemsToScript h) _

theorem becomes_map {ps : List (Value × Value)} {es : List (Utf16 × Script.Value)}
    (h : List.Forall₂
      (fun p e => p.1.propertyName? = some e.1 ∧ Becomes b (depth + 1) p.2 e.2) ps es)
    (hdistinct : (es.map (·.1)).Nodup) : Becomes b depth (.map ps) (.map es) := by
  have hrun : (entriesToScript (depth + 1) [] ps).run b = (.ok ([] ++ es), b) :=
    run_entriesToScript h hdistinct
  exact run_map_within hdepth hrun _

end

end Native.Value
end ScriptBridge
