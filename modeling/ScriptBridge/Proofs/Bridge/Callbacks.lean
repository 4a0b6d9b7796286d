import ScriptBridge.Proofs.Bridge.Identity
import ScriptBridge.Proofs.Bridge.Surviving
import ScriptBridge.Proofs.Conversion.Failures
import ScriptBridge.Proofs.Typed.Extracting

/-! # Callbacks that are handed over weakly

A policy can have a function argument handed to the body as a weak handle, so that the body does not
keep the function alive. What the body gets depends on the part of the declared type by which the
function is taken: `DeclaredType.functionPart?`. Taken as a function, it comes as a weak handle;
taken as any value, it is passed through as it is, and the policy has no effect on it.

* `Bridge.inner_of_function` is what a function is converted to.
* `Bridge.weak_callback_iff` is what the body of a method gets.
-/

namespace ScriptBridge
set_option autoImplicit false

namespace DeclaredType

mutual

/-- The part of a type, under its optionals and variants, by which script functions are taken. -/
def functionPart? : DeclaredType → Option DeclaredType
  | any => some any
  | function => some function
  | optional inner => inner.functionPart?
  | variant alternatives => functionPartOf? alternatives
  | _ => none

/-- The part of the first alternative that has one. -/
def functionPartOf? : List DeclaredType → Option DeclaredType
  | [] => none
  | t :: rest => t.functionPart?.or (functionPartOf? rest)

end

theorem functionPartOf?_eq_none {types : List DeclaredType}
    (h : ∀ t ∈ types, t.functionPart? = none) : functionPartOf? types = none := by
  induction types with
  | nil => rfl
  | cons t rest ih =>
    obtain ⟨ht, hrest⟩ := List.forall_mem_cons.1 h
    rw [functionPartOf?, ht, ih hrest]
    rfl

theorem functionPartOf?_append {before after : List DeclaredType} {t part : DeclaredType}
    (hbefore : ∀ t ∈ before, t.functionPart? = none) (ht : t.functionPart? = some part) :
    functionPartOf? (before ++ t :: after) = some part := by
  induction before with
  | nil =>
    rw [List.nil_append, functionPartOf?, ht]
    rfl
  | cons t' before ih =>
    obtain ⟨ht', hrest⟩ := List.forall_mem_cons.1 hbefore
    rw [List.cons_append, functionPartOf?, ht', ih hrest]
    rfl

end DeclaredType

namespace Bridge

variable {b : Bridge} {index depth : Nat} {t : DeclaredType} {f : ObjectId} {n : Native.Value}

/-- Too deep a nesting, or a type that takes no functions. -/
def NoFunction (t : DeclaredType) (err : BridgeError) : Prop :=
  (∃ i limit, err = .depth i limit) ∨ t.functionPart? = none

/-- A type that has a part for functions fails on one only if it is nested too deep. -/
theorem failsWith_noFunction (b : Bridge) (index : Nat) (f : ObjectId) (t : DeclaredType)
    (depth : Nat) : FailsWith (NoFunction t) (b.fromScriptAt index t depth (.function f)) := by
  have hdeep : ∀ {t depth}, b.Admits (NoFunction t) index depth 0 := .inr (.inl ⟨_, _, rfl⟩)
  induction t using DeclaredType.inductionOn generalizing depth with
  | any | function => exact failsWith_within hdeep (.pure _)
  | optional inner ih => exact failsWith_within hdeep (ih depth)
  | variant alternatives ih =>
    refine failsWith_within hdeep fun err herr => ?_
    refine (refuses_of_alternativeFromScript_error herr).imp_right fun hrefuses => ?_
    refine DeclaredType.functionPartOf?_eq_none fun t ht => ?_
    obtain ⟨err', herr', hnot⟩ := hrefuses t ht
    refine (ih t ht (depth + 1) err' herr').resolve_left ?_
    rintro ⟨i, limit, rfl⟩
    exact hnot i limit rfl
  | _ => exact fun _ _ => .inr rfl

theorem functionPart?_of_refuses (h : b.Refuses index t depth (.function f)) :
    t.functionPart? = none := by
  obtain ⟨err, herr, hnot⟩ := h
  refine (failsWith_noFunction b index f t depth err herr).resolve_left ?_
  rintro ⟨i, limit, rfl⟩
  exact hnot i limit rfl

/-- A function is converted to a reference by a function type, and left as it is by the type of all
values, under the layers of the variants on the way. -/
theorem inner_of_function (t : DeclaredType) {depth : Nat} {n : Native.Value}
    (h : b.fromScriptAt index t depth (.function f) = .ok n) :
    t.functionPart? = some .function ∧ n.inner = .function f ∨
      t.functionPart? = some .any ∧ n.inner = .script (.function f) := by
  induction t using DeclaredType.layersOn generalizing depth n with
  | scalar t ht =>
    obtain ⟨-, hreads⟩ := reads_of_fromScriptAt ht h
    cases hreads with
    | any => exact .inr ⟨rfl, rfl⟩
    | function => exact .inl ⟨rfl, rfl⟩
    | null hv | integer hv | bounded _ hv _ | number hv | object hv _ => cases hv
  | optional inner ih =>
    obtain ⟨-, ⟨hv, -⟩ | ⟨hv, -⟩ | ⟨-, hn⟩⟩ := fromScriptAt_optional_iff.1 h
    · cases hv
    · cases hv
    · exact ih hn
  | variant alternatives ih =>
    obtain ⟨-, before, t, after, n', rfl, rfl, hn', hbefore⟩ := fromScriptAt_variant_iff.1 h
    have hmem : t ∈ before ++ t :: after := List.mem_append_right _ List.mem_cons_self
    have hnone : ∀ t' ∈ before, t'.functionPart? = none :=
      fun t' ht' => functionPart?_of_refuses (hbefore t' ht')
    refine (ih t hmem hn').imp ?_ ?_
    all_goals exact fun ⟨hpart, hinner⟩ =>
      ⟨DeclaredType.functionPartOf?_append hnone hpart, hinner⟩
  | tuple types ih =>
    obtain ⟨-, items, ns, hv, -⟩ := fromScriptAt_tuple_iff.1 h
    cases hv
  | list element =>
    obtain ⟨-, items, ns, hv, -⟩ := fromScriptAt_list_iff.1 h
    cases hv
  | set element =>
    obtain ⟨-, items, ns, hv, -⟩ := fromScriptAt_set_iff.1 h
    cases hv
  | map key value =>
    obtain ⟨-, es, ps, hv, -⟩ := fromScriptAt_map_iff.1 h
    cases hv

/-! ## Calls -/

/-- **What a body gets for a function under a weak policy.** It gets a weak handle to the function,
under the layers of the variants of the declared type, exactly if the type takes the function by the
type of functions. If it takes it by the type of all values, then the body gets the script value
that names the function. It never gets a reference, and there is no third case. -/
theorem weak_callback_iff (b : Bridge) (receiver : Script.Value) (name : String)
    (args : List Script.Value) (c : Call) (hcall : b.methodCall? receiver name args = some c)
    (k : Nat) (t : DeclaredType) (f : ObjectId) (hpolicy : c.policy = .weakCallback k)
    (ht : c.params[k]? = some t) (hf : args[k]? = some (.function f))
    (handed : List Native.Value) (hhanded : c.handed? b = .ok handed) :
    (∀ serve, b.callMethodBy serve receiver name args =
      match ((c.body handed).run serve).run (c.begun b) with
      | (.error err, after) => (.error err, after.closeScope)
      | (.ok n, after) => c.finish n after) ∧
    ∃ n, handed[k]? = some n ∧ (∀ id, n.inner ≠ .function id) ∧
      (n.inner = .weakFunction ⟨.function, f⟩ ∨ n.inner = .script (.function f)) ∧
      (n.inner = .weakFunction ⟨.function, f⟩ ↔ t.functionPart? = some .function) ∧
      (n.inner = .script (.function f) ↔ t.functionPart? = some .any) := by
  refine ⟨fun serve => ?_, ?_⟩
  · have hrun := c.run_eq serve b
    rw [hhanded] at hrun
    exact (b.callMethodBy_of_methodCall? serve hcall).trans hrun
  obtain ⟨this, o, m, -, -, rfl⟩ := b.methodCall?_eq_some hcall
  obtain ⟨converted, hconverted, rfl⟩ := map_eq_ok_iff.1 hhanded
  obtain ⟨n, hn, hargument⟩ := converted_argument hconverted ht
  have hdemoted : (CallPolicy.hand m.policy converted)[k]? = some n.demote := by
    rw [show m.policy = .weakCallback k from hpolicy]
    simp [CallPolicy.hand, hn]
  rw [Nat.zero_add, hf] at hargument
  refine ⟨n.demote, hdemoted, ?_⟩
  rw [Native.Value.inner_demote]
  rcases inner_of_function t hargument with ⟨hpart, hinner⟩ | ⟨hpart, hinner⟩
  · simp [hinner, hpart, Native.Value.demote]
  · simp [hinner, hpart, Native.Value.demote]

/-! ## A node that listens -/

/-- A node that is to get its listener weakly. -/
def listening (listener : DeclaredType) : NativeClass :=
  ({ name := "Node" } : NativeClass).method "listen" [listener] (.weakCallback 0)
    fun _ _ _ => return .undefined

/-- The call by which the node is told to listen to the function. -/
def subscription (listener : DeclaredType) : Call where
  this := some ⟨0, 0⟩
  params := [listener]
  policy := .weakCallback 0
  args := [.function ⟨1, 0⟩]
  body := fun _ => return .undefined

/-- A node and a function in one scope. -/
def nodeAndListener (listener : DeclaredType) : Bridge :=
  ((({} : Bridge).defineClass (listening listener)).2.openScope.withNode.createFunction "f"
    fun _ => { result := .ok .undefined }).2

theorem reachable_nodeAndListener (listener : DeclaredType) :
    (nodeAndListener listener).Reachable := by
  have hdefined : Run ({} : Bridge) (({} : Bridge).defineClass (listening listener)).2 :=
    Relation.ReflTransGen.single ⟨0, .defineClass (listening listener)⟩
  have hscope := hdefined.tail ⟨0, .ask .openScope⟩
  refine (Reachable.withNode ⟨{}, hscope⟩).run (Relation.ReflTransGen.single ⟨0, ?_⟩)
  exact .ask (.createFunction "f" fun _ => { result := .ok .undefined })

/-- A listener that is optional, or else any value, is handed over weakly. -/
theorem weak_callback_of_optional :
    let t := DeclaredType.variant [.optional .function, .any]
    let c := subscription t
    (nodeAndListener t).methodCall? (.wrapper ⟨0, 0⟩) "listen" [.function ⟨1, 0⟩] = some c ∧
      c.handed? (nodeAndListener t) = .ok [.variant 0 (.weakFunction ⟨.function, ⟨1, 0⟩⟩)] ∧
      t.functionPart? = some .function := by
  intro t c
  have hcall : (nodeAndListener t).methodCall? (.wrapper ⟨0, 0⟩) "listen" [.function ⟨1, 0⟩] =
    some c := rfl
  have hhanded : c.handed? (nodeAndListener t) =
    .ok [.variant 0 (.weakFunction ⟨.function, ⟨1, 0⟩⟩)] := rfl
  obtain ⟨-, n, hn, -, -, hweak, -⟩ := weak_callback_iff _ _ _ _ c hcall 0 t ⟨1, 0⟩ rfl rfl rfl _
    hhanded
  cases hn
  exact ⟨hcall, hhanded, hweak.1 rfl⟩

/-- A listener that may be any value is handed over as the script value that names it. -/
theorem raw_callback :
    let b := nodeAndListener .any
    b.Reachable ∧ b.isAlive ⟨1, 0⟩ ∧
      b.methodCall? (.wrapper ⟨0, 0⟩) "listen" [.function ⟨1, 0⟩] = some (subscription .any) ∧
      (subscription .any).policy = .weakCallback 0 ∧
      (subscription .any).handed? b = .ok [.script (.function ⟨1, 0⟩)] :=
  ⟨reachable_nodeAndListener .any, by decide, rfl, rfl, rfl⟩

end Bridge
end ScriptBridge
