import Mathlib.Order.Bounds.Defs
import ScriptBridge.Bridge.Loading
import ScriptBridge.Proofs.Bridge.Calls
import ScriptBridge.Proofs.Bridge.Moves
import ScriptBridge.Proofs.Conversion.Failures

/-! # Calls that are refused for their arguments

A call with an argument that is not of its declared type has no effect. The scope that was opened
for it is closed again with its pins, no policy is applied, no body is run, and the failure is that
of the first such argument.

* `Bridge.fromScriptAt_congr` says what a conversion looks at; the pins of a call are not among it.
* `Call.refused_of_rejects` is what becomes of the call, whatever its body.
* `Bridge.conversion_failure_undoes_call` says so of constructions, methods and functions.
-/

namespace ScriptBridge
set_option autoImplicit false

/-! ## The scope of a call -/

namespace Engine

/-- Pins go to the scope that was opened last. -/
theorem exists_pinAll_eq (e : Engine) {scope : HandleScope} {rest : List HandleScope}
    (h : e.roots.inner = scope :: rest) (vs : List Script.Value) :
    ∃ scope', e.pinAll vs = { e with roots := { e.roots with inner := scope' :: rest } } := by
  induction vs generalizing e scope with
  | nil =>
    refine ⟨scope, ?_⟩
    rw [← h]
    rfl
  | cons v vs ih =>
    by_cases hnone : v.objects.isEmpty
    · have hpin : e.pin v = e := by simp [pin, Roots.pin, hnone]
      change ∃ scope', (e.pin v).pinAll vs = _
      rw [hpin]
      exact ih e h
    · have hpin : e.pin v =
          { e with roots := { e.roots with inner := (scope ++ [v]) :: rest } } := by
        simp [pin, Roots.pin, hnone, h]
      obtain ⟨scope', hscope'⟩ := ih (e.pin v) (by rw [hpin])
      refine ⟨scope', hscope'.trans ?_⟩
      rw [hpin]

/-- A scope that opens and closes takes its pins with it. -/
theorem closeScope_pinAll_openScope (e : Engine) (vs : List Script.Value) :
    (e.openScope.pinAll vs).closeScope = e := by
  obtain ⟨scope, hscope⟩ := e.openScope.exists_pinAll_eq rfl vs
  rw [hscope]
  rfl

end Engine

namespace Bridge

variable {b b' : Bridge} {index : Nat}

theorem closeScope_entered (c : Call) (b : Bridge) : (c.entered b).closeScope = b := by
  have hengine := b.engine.closeScope_pinAll_openScope c.args
  exact congrArg (fun engine => { b with engine }) hengine

/-! ## What a conversion looks at -/

theorem within_congr (hoptions : b'.options = b.options) {depth : Nat}
    {x y : Except BridgeError Native.Value} (h : x = y) :
    b'.within index depth x = b.within index depth y := by
  rw [within, within, hoptions, h]

theorem componentsFromScript_congr {types : List DeclaredType} {depth : Nat}
    (h : ∀ t ∈ types, ∀ v, b'.fromScriptAt index t depth v = b.fromScriptAt index t depth v)
    (items : List Script.Value) :
    b'.componentsFromScript index types depth items =
      b.componentsFromScript index types depth items := by
  induction types generalizing items with
  | nil => rfl
  | cons t types ih =>
    obtain ⟨ht, htypes⟩ := List.forall_mem_cons.1 h
    cases items with
    | nil => rfl
    | cons item items =>
      unfold componentsFromScript
      rw [ht, ih htypes]

theorem alternativeFromScript_congr {types : List DeclaredType} {depth : Nat} {v : Script.Value}
    (h : ∀ t ∈ types, b'.fromScriptAt index t depth v = b.fromScriptAt index t depth v)
    (number : Nat) (fail : BridgeError) :
    b'.alternativeFromScript index types number fail depth v =
      b.alternativeFromScript index types number fail depth v := by
  induction types generalizing number with
  | nil => rfl
  | cons t types ih =>
    obtain ⟨ht, htypes⟩ := List.forall_mem_cons.1 h
    unfold alternativeFromScript
    rw [ht, ih htypes]

/-- **A conversion from script looks at the limit, at the classes and at the handles behind living
wrappers**, and at nothing else of the bridge. -/
theorem fromScriptAt_congr (hoptions : b'.options = b.options) (hclasses : b'.classes = b.classes)
    (hnative : b'.nativeOf = b.nativeOf) (t : DeclaredType) (depth : Nat) (v : Script.Value) :
    b'.fromScriptAt index t depth v = b.fromScriptAt index t depth v := by
  have step {depth : Nat} {x y : Except BridgeError Native.Value} (h : x = y) :
      b'.within index depth x = b.within index depth y := within_congr hoptions h
  induction t using DeclaredType.inductionOn generalizing depth v with
  | object className =>
    refine step ?_
    rw [hnative, hclasses]
  | tuple types ih =>
    refine step ?_
    split
    · rw [componentsFromScript_congr fun t ht v => ih t ht (depth + 1) v]
    · rfl
  | variant alternatives ih =>
    exact step (alternativeFromScript_congr (fun t ht => ih t ht (depth + 1) v) _ _)
  | list element ih | set element ih =>
    refine step ?_
    split
    · rw [funext (ih (depth + 1))]
    · rfl
  | map key value ih =>
    refine step ?_
    split
    · rw [funext (ih (depth + 1))]
    · rfl
  | optional inner ih =>
    refine step ?_
    split
    · rfl
    · rfl
    · exact ih depth _
  | _ => exact step rfl

theorem nativeOf_entered (c : Call) (b : Bridge) : (c.entered b).nativeOf = b.nativeOf := by
  funext v
  have hheap : (c.entered b).engine.heap = b.engine.heap := heap_pinAll b.openScope c.args
  cases v with
  | wrapper id =>
    unfold nativeOf isAlive Engine.isAlive
    rw [hheap]
    rfl
  | _ => rfl

theorem fromScript_entered (c : Call) (b : Bridge) : (c.entered b).fromScript = b.fromScript := by
  funext v t index
  refine fromScriptAt_congr ?_ ?_ (nativeOf_entered c b) t 0 v
  · rfl
  · rfl

/-! ## The first failure -/

/-- What fails first among the arguments makes the conversion of all of them fail. -/
theorem convertArguments_eq_error {args : List Script.Value} {first : Nat}
    {params : List DeclaredType} {err : BridgeError}
    (h : b.convertArguments args first params = .error err) :
    ∃ k t, params[k]? = some t ∧
      b.fromScript (args[first + k]?.getD .undefined) t (first + k) = .error err ∧
      ∀ j < k, ∀ t', params[j]? = some t' →
        ∃ n, b.fromScript (args[first + j]?.getD .undefined) t' (first + j) = .ok n := by
  induction params generalizing first with
  | nil => cases h
  | cons t params ih =>
    unfold convertArguments at h
    cases hn : b.fromScript (args[first]?.getD .undefined) t first with
    | error err' =>
      rw [hn] at h
      cases h
      exact ⟨0, t, rfl, hn, fun j hj => absurd hj (Nat.not_lt_zero j)⟩
    | ok n =>
      rw [hn] at h
      cases hns : b.convertArguments args (first + 1) params with
      | ok ns =>
        rw [hns] at h
        cases h
      | error err' =>
        rw [hns] at h
        cases h
        obtain ⟨k, t', ht', herr, hbefore⟩ := ih hns
        simp only [Nat.add_assoc, Nat.add_comm 1] at herr hbefore
        refine ⟨k + 1, t', ht', herr, fun j hj t'' ht'' => ?_⟩
        cases j with
        | zero =>
          cases ht''
          exact ⟨n, hn⟩
        | succ j => exact hbefore j (Nat.lt_of_succ_lt_succ hj) t'' ht''

end Bridge

namespace Call

variable {c : Call} {b : Bridge} {k : Nat} {err : BridgeError}

/-- The argument at a place, undefined if it is missing, cannot be converted to its declared type.
-/
def Rejects (c : Call) (b : Bridge) (k : Nat) (err : BridgeError) : Prop :=
  ∃ t, c.params[k]? = some t ∧ b.fromScript (c.args[k]?.getD .undefined) t k = .error err

/-- A failure of a conversion, of a length, of a key or of the depth, at a place. -/
def FailureAt (err : BridgeError) (k : Nat) : Prop :=
  err.label ∈ ["Conversion", "Arity", "Lookup", "Depth"] ∧ err.argumentIndex? = some k

theorem failureAt_of_argumentIndex? (h : err.argumentIndex? = some k) : FailureAt err k := by
  refine ⟨?_, h⟩
  cases err with
  | conversion | arity | lookup | depth => simp [BridgeError.label]
  | _ => cases h

/-- The call is refused because of its first argument that cannot be converted. It fails as the
conversion of that argument does, the bridge is as it was before, and the body has no part in it:
whatever other body stands in its place, the outcome is the same. -/
def Refused (c : Call) (b : Bridge)
    (outcome : Server → Except BridgeError Script.Value × Bridge) : Prop :=
  ∃ k err, IsLeast {k | ∃ err, c.Rejects b k err} k ∧ c.Rejects b k err ∧ FailureAt err k ∧
    ∀ serve, outcome serve = (.error err, b) ∧
      ∀ body, { c with body }.run serve b = (.error err, b)

theorem handed?_of_rejects (h : c.Rejects b k err) :
    ∃ k err, IsLeast {k | ∃ err, c.Rejects b k err} k ∧ c.Rejects b k err ∧
      c.handed? b = .error err := by
  unfold handed?
  cases hargs : (c.entered b).convertArguments c.args 0 c.params with
  | ok converted =>
    obtain ⟨t, ht, herr⟩ := h
    obtain ⟨n, -, hn⟩ := Bridge.converted_argument hargs ht
    rw [Bridge.fromScript_entered, Nat.zero_add, herr] at hn
    cases hn
  | error err =>
    obtain ⟨k, t, ht, herr, hbefore⟩ := Bridge.convertArguments_eq_error hargs
    simp only [Nat.zero_add, Bridge.fromScript_entered] at herr hbefore
    refine ⟨k, err, ⟨⟨err, t, ht, herr⟩, ?_⟩, ⟨t, ht, herr⟩, rfl⟩
    rintro j ⟨err', t', ht', herr'⟩
    by_contra hlt
    obtain ⟨n, hn⟩ := hbefore j (Nat.not_le.1 hlt) t' ht'
    rw [herr'] at hn
    cases hn

/-- **A call with an argument that cannot be converted is refused.** -/
theorem refused_of_rejects (h : c.Rejects b k err) : c.Refused b (c.run · b) := by
  obtain ⟨k, err, hleast, hrejects, hhanded⟩ := handed?_of_rejects h
  have hindex : err.argumentIndex? = some k := by
    obtain ⟨t, -, herr⟩ := hrejects
    exact Bridge.argumentIndex?_of_fromScript_error herr
  have hrun : ∀ serve body, { c with body }.run serve b = (.error err, b) := by
    intro serve body
    have hhanded' : { c with body }.handed? b = .error err := hhanded
    rw [run_eq, hhanded']
    exact Prod.ext rfl (Bridge.closeScope_entered { c with body } b)
  exact ⟨k, err, hleast, hrejects, failureAt_of_argumentIndex? hindex,
    fun serve => ⟨hrun serve c.body, hrun serve⟩⟩

end Call

namespace Bridge

variable {b : Bridge} {c : Call}

theorem constructBy_of_constructCall? {className : String} {args : List Script.Value}
    (h : b.constructCall? className args = some c) (serve : Server) :
    b.constructBy serve className args = c.run serve b := by
  unfold constructCall? at h
  cases hclass : b.classes.find? className with
  | none => simp [hclass] at h
  | some class' =>
    cases hctor : class'.constructor? with
    | none => simp [hclass, hctor] at h
    | some ctor =>
      simp only [hclass, hctor, Option.pure_def, Option.bind_eq_bind, Option.bind_some,
        Option.some.injEq] at h
      simp only [constructBy, hclass, hctor, ← h, Call.run]

theorem callFunctionBy_of_functionCall? {moduleName name : String} {args : List Script.Value}
    (h : b.functionCall? moduleName name args = some c) (serve : Server) :
    b.callFunctionBy serve moduleName name args = c.run serve b := by
  unfold functionCall? at h
  cases hmodule : b.modules.find? moduleName with
  | none => simp [hmodule] at h
  | some m =>
    cases hfunction : m.functions.find? name with
    | none => simp [hmodule, hfunction] at h
    | some f =>
      simp only [hmodule, hfunction, Option.pure_def, Option.bind_eq_bind, Option.bind_some,
        Option.some.injEq] at h
      simp only [callFunctionBy, hmodule, hfunction, ← h, Call.run]

/-- **A failed conversion of an argument undoes the whole call.** When a construction, a method or a
function is found, and one of its arguments, the missing ones taken as undefined, is not of its
declared type, then no body is run and the bridge is left as it was, with every scope and its pins,
the heap, the registry, the edges, the globals and the instances. The failure is that of the first
such argument and carries its place, however deep inside the argument it happened. -/
theorem conversion_failure_undoes_call (b : Bridge) :
    (∀ className args c, b.constructCall? className args = some c →
      (∃ k err, c.Rejects b k err) →
        c.Refused b fun serve => b.constructBy serve className args) ∧
    (∀ receiver name args c, b.methodCall? receiver name args = some c →
      (∃ k err, c.Rejects b k err) →
        c.Refused b fun serve => b.callMethodBy serve receiver name args) ∧
    ∀ moduleName name args c, b.functionCall? moduleName name args = some c →
      (∃ k err, c.Rejects b k err) →
        c.Refused b fun serve => b.callFunctionBy serve moduleName name args := by
  refine ⟨fun className args c hc ⟨k, err, h⟩ => ?_, fun receiver name args c hc ⟨k, err, h⟩ => ?_,
    fun moduleName name args c hc ⟨k, err, h⟩ => ?_⟩
  · simp only [constructBy_of_constructCall? hc]
    exact Call.refused_of_rejects h
  · simp only [b.callMethodBy_of_methodCall? _ hc]
    exact Call.refused_of_rejects h
  · simp only [callFunctionBy_of_functionCall? hc]
    exact Call.refused_of_rejects h

/-! ## A list with a string in it -/

/-- A class and a module that ask for a list of integers after a boolean. -/
def sums : Bridge :=
  let params : List DeclaredType := [.bool, .list .integer]
  let c := (({ name := "Sum" } : NativeClass).withConstructor params fun _ => return .view).method
    "add" params (.retain 1) fun _ _ _ => return .undefined
  let m := ({ name := "sums" } : Module).function "add" params fun _ => return .undefined
  let b := ((({} : Bridge).defineClass c).2.loadModule m).2.openScope
  let (o, b) := b.create "Sum" .view
  (b.wrap o).2

/-- Each of the three calls is refused for its second argument. -/
theorem conversion_failure_undoes_sums :
    let args : List Script.Value := [.bool true, .array [.int 1, .text "x"], .null]
    ∃ made added called, sums.constructCall? "Sum" args = some made ∧
      sums.methodCall? (.wrapper ⟨0, 0⟩) "add" args = some added ∧
      sums.functionCall? "sums" "add" args = some called ∧
      made.Refused sums (fun serve => sums.constructBy serve "Sum" args) ∧
      added.Refused sums (fun serve => sums.callMethodBy serve (.wrapper ⟨0, 0⟩) "add" args) ∧
      called.Refused sums fun serve => sums.callFunctionBy serve "sums" "add" args := by
  intro args
  have hrejects : ∀ c : Call, c.params = [.bool, .list .integer] → c.args = args →
      ∃ k err, c.Rejects sums k err := by
    intro c hparams hargs
    refine ⟨1, .conversion 1 .integer "string", .list .integer, ?_, ?_⟩
    · rw [hparams]
      rfl
    · rw [hargs]
      rfl
  obtain ⟨hmade, hadded, hcalled⟩ := conversion_failure_undoes_call sums
  exact ⟨_, _, _, rfl, rfl, rfl, hmade "Sum" args _ rfl (hrejects _ rfl rfl),
    hadded (.wrapper ⟨0, 0⟩) "add" args _ rfl (hrejects _ rfl rfl),
    hcalled "sums" "add" args _ rfl (hrejects _ rfl rfl)⟩

end Bridge
end ScriptBridge
