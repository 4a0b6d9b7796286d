import Mathlib.Data.List.Nodup
import ScriptBridge.Proofs.Bridge.Definitions
import ScriptBridge.Proofs.Bridge.Refusals

/-! # Symbolic names

A module lists its functions under names that join its own name and theirs with a dot, and a call by
such a name splits it at the first dot. So the name leads back to the function if no dot stands in
the name of the module; dots in the name of the function do no harm. A dot in the name of the module
leads elsewhere: what stands before the first one is taken for the module.

* `splitSymbol?_append` is where a name is split.
* `Module.mem_symbols_iff` and `Module.nodup_symbols` say what a module lists.
* `Bridge.Exports` is a function of a loaded module, and `Bridge.symbol_calls_agree_iff` says which
  names of modules lead back to it.
-/

namespace ScriptBridge
set_option autoImplicit false

/-! ## Joining and splitting -/

theorem splitSymbol?_append {moduleName : String} (h : '.' ∉ moduleName.toList) (name : String) :
    splitSymbol? (moduleName ++ "." ++ name) = some (moduleName, name) := by
  have hbefore : ∀ c ∈ moduleName.toList, decide (c ≠ '.') = true :=
    fun c hc => decide_eq_true fun heq => h (heq ▸ hc)
  have htext : (moduleName ++ "." ++ name).toList = moduleName.toList ++ '.' :: name.toList := by
    simp
  unfold splitSymbol?
  simp only [htext, List.takeWhile_append_of_pos hbefore, List.dropWhile_append_of_pos hbefore]
  simp

/-- A text with a dot in it is what stands before the first one, the dot, and the rest. -/
theorem exists_first_dot {s : String} (h : '.' ∈ s.toList) :
    ∃ head tail, s = head ++ "." ++ tail ∧ '.' ∉ head.toList := by
  obtain ⟨head, tail, hs, hhead⟩ := List.eq_append_cons_of_mem h
  refine ⟨String.ofList head, String.ofList tail, ?_, by rwa [String.toList_ofList]⟩
  rw [← String.toList_inj, hs]
  simp

theorem ne_of_eq_append_dot {s head tail : String} (h : s = head ++ "." ++ tail) : head ≠ s := by
  intro heq
  have hlength := congrArg String.length (heq.trans h)
  simp only [String.length_append] at hlength
  have hdot : (".").length = 1 := rfl
  omega

namespace Module

variable {m : Module}

theorem symbol_injective (m : Module) : Function.Injective m.symbol :=
  fun _ _ h => (String.append_right_inj _).1 h

/-- The names of the functions are listed, and no others. -/
theorem mem_symbols_iff (s : String) :
    s ∈ m.symbols ↔ ∃ name ∈ m.functions.keys, m.symbol name = s := by
  rw [symbols, List.mem_mergeSort, List.mem_map]

theorem nodup_symbols (m : Module) : m.symbols.Nodup := by
  have hperm : m.symbols.Perm (m.functions.keys.map m.symbol) := List.mergeSort_perm _ _
  exact hperm.nodup_iff.2 (List.Nodup.map m.symbol_injective m.functions.distinct)

end Module

/-- The call of a function of a module. -/
def ModuleFunction.call (f : ModuleFunction) (args : List Script.Value) : Call where
  this := none
  params := f.params
  policy := .none
  args
  body := f.body

namespace Bridge

variable {b : Bridge} {m : Module} {name : String} {f : ModuleFunction}

/-! ## Functions of loaded modules -/

/-- The bridge, used in whatever way, has the module loaded, and the module exports the function. -/
structure Exports (b : Bridge) (m : Module) (name : String) (f : ModuleFunction) : Prop where
  reachable : b.Reachable
  loaded : m ∈ b.modules.values
  exported : m.functions.find? name = some f

theorem Exports.mem_symbols (h : b.Exports m name f) : m.symbol name ∈ m.symbols :=
  (Module.mem_symbols_iff _).2 ⟨name, Table.mem_keys_of_find? h.exported, rfl⟩

/-- A call by the names of the module and the function is a call of the function. -/
theorem Exports.callFunctionBy_eq (h : b.Exports m name f) (serve : Server)
    (args : List Script.Value) :
    b.callFunctionBy serve m.name name args = (f.call args).run serve b := by
  refine callFunctionBy_of_functionCall? ?_ serve
  simp [functionCall?, h.reachable.find?_modules h.loaded, h.exported, ModuleFunction.call]

/-- What stands before the first dot of a symbolic name is taken for the module. -/
theorem callSymbolBy_append (b : Bridge) (serve : Server) {moduleName : String}
    (h : '.' ∉ moduleName.toList) (name : String) (args : List Script.Value) :
    b.callSymbolBy serve (moduleName ++ "." ++ name) args =
      b.callFunctionBy serve moduleName name args := by
  rw [callSymbolBy, splitSymbol?_append h]

theorem callFunctionBy_of_not_loaded {moduleName : String} (h : b.modules.find? moduleName = none)
    (serve : Server) (name : String) (args : List Script.Value) :
    b.callFunctionBy serve moduleName name args = (.error (.unknownModule moduleName), b) := by
  rw [callFunctionBy, h]

/-! ## Modules with one function -/

/-- A module that exports one function, which returns one value. -/
def oneFunction (moduleName name : String) (n : Native.Value) : Module :=
  ({ name := moduleName } : Module).function name [] fun _ => return n

def withModule (b : Bridge) (m : Module) : Bridge := (b.loadModule m).2

theorem Reachable.withModule (h : b.Reachable) (m : Module) : (b.withModule m).Reachable := by
  obtain ⟨options, hrun⟩ := h
  exact ⟨options, hrun.tail ⟨0, .loadModule m⟩⟩

/-- Nothing keeps a module without values from being loaded. -/
theorem modules_withModule (b : Bridge) (moduleName name : String) (n : Native.Value) :
    (b.withModule (oneFunction moduleName name n)).modules =
      b.modules.insert moduleName (oneFunction moduleName name n) := rfl

theorem Reachable.exports_withModule (h : b.Reachable) (moduleName name : String)
    (n : Native.Value) :
    (b.withModule (oneFunction moduleName name n)).Exports (oneFunction moduleName name n) name
      ⟨name, [], fun _ => return n⟩ where
  reachable := h.withModule _
  loaded := by
    rw [modules_withModule, Table.mem_values_iff]
    exact ⟨moduleName, by rw [Table.find?_insert, if_pos rfl]⟩
  exported := by
    change (Table.empty.insert name _).find? name = _
    rw [Table.find?_insert, if_pos rfl]

/-- A module stays loaded when one of another name is. -/
theorem Exports.withModule (h : b.Exports m name f) {other : String} (hother : m.name ≠ other)
    (name' : String) (n : Native.Value) :
    (b.withModule (oneFunction other name' n)).Exports m name f where
  reachable := h.reachable.withModule _
  loaded := by
    rw [modules_withModule, Table.mem_values_iff]
    refine ⟨m.name, ?_⟩
    rw [Table.find?_insert, if_neg hother]
    exact h.reachable.find?_modules h.loaded
  exported := h.exported

/-! ## Calls by symbolic names -/

/-- Where a dot stands in the name of a module, what stands before it is asked for, and need not be
there. -/
theorem exists_misled {moduleName : String} (h : '.' ∈ moduleName.toList) (name : String) :
    ∃ b m f, Exports b m name f ∧ m.name = moduleName ∧
      b.callSymbol (m.symbol name) [] ≠ b.callFunction m.name name [] := by
  obtain ⟨head, tail, hname, hhead⟩ := exists_first_dot h
  -- The module alone is loaded, so nothing stands under what is before the dot.
  let m := oneFunction moduleName name .undefined
  let b := ({} : Bridge).withModule m
  have hexports : b.Exports m name ⟨name, [], fun _ => return .undefined⟩ :=
    Reachable.exports_withModule ⟨{}, .refl⟩ moduleName name .undefined
  have hfound : (b.callFunction m.name name []).1 = .ok .undefined := by
    rw [callFunction, hexports.callFunctionBy_eq]
    rfl
  have hmissing : b.modules.find? head = none := by
    rw [modules_withModule, Table.find?_insert, if_neg (ne_of_eq_append_dot hname)]
    rfl
  have hsymbol : m.symbol name = head ++ "." ++ (tail ++ "." ++ name) := by
    change moduleName ++ "." ++ name = _
    rw [hname]
    simp only [String.append_assoc]
  have hmisled : b.callSymbol (m.symbol name) [] = (.error (.unknownModule head), b) := by
    rw [callSymbol, hsymbol, callSymbolBy_append b _ hhead, callFunctionBy_of_not_loaded hmissing]
  refine ⟨b, m, _, hexports, rfl, fun heq => ?_⟩
  rw [← heq, hmisled] at hfound
  cases hfound

/-- **A symbolic name leads back to its function exactly if no dot stands in the name of the
module.** In a bridge that was used in whatever way, with whatever modules loaded, a module lists
every function under one name and no name twice, and a call by the names of the module and the
function is a call of the function. A call by a listed name, also from inside a body, is one by the
names before and behind its first dot. These are the names of the module and the function if the
name of the module is without a dot, whatever the function is called and whatever else is loaded.
For every name of a module with a dot in it there is a bridge in which the two calls differ. -/
theorem symbol_calls_agree_iff (moduleName name : String) :
    (∀ b m f, Exports b m name f → m.name = moduleName →
      ((∀ s, s ∈ m.symbols ↔ ∃ other ∈ m.functions.keys, m.symbol other = s) ∧ m.symbols.Nodup) ∧
      ∀ serve args, b.callFunctionBy serve m.name name args = (f.call args).run serve b ∧
        ∀ head tail, m.symbol name = head ++ "." ++ tail → '.' ∉ head.toList →
          b.callSymbolBy serve (m.symbol name) args = b.callFunctionBy serve head tail args) ∧
    ((∀ b m f, Exports b m name f → m.name = moduleName →
      ∀ args, b.callSymbol (m.symbol name) args = b.callFunction m.name name args) ↔
        '.' ∉ moduleName.toList) := by
  constructor
  · intro b m f h hname
    refine ⟨⟨m.mem_symbols_iff, m.nodup_symbols⟩, fun serve args => ?_⟩
    refine ⟨h.callFunctionBy_eq serve args, fun head tail hsymbol hhead => ?_⟩
    rw [hsymbol, callSymbolBy_append b serve hhead]
  constructor
  · intro hagree hdot
    obtain ⟨b, m, f, h, hname, hne⟩ := exists_misled hdot name
    exact hne (hagree b m f h hname [])
  · intro hdot b m f h hname args
    rw [← hname] at hdot
    exact callSymbolBy_append b _ hdot name args

/-- Two modules whose functions have one symbolic name. -/
def overlapping : Bridge :=
  (({} : Bridge).withModule (oneFunction "math" "add.exact" (.bool true))).withModule
    (oneFunction "math.add" "exact" (.bool false))

/-- The name without a dot leads back, and the other module is not asked. -/
theorem symbol_calls_agree_overlapping :
    let m := oneFunction "math" "add.exact" (.bool true)
    (∃ f, overlapping.Exports m "add.exact" f) ∧ '.' ∉ m.name.toList ∧
      "math.add.exact" ∈ m.symbols ∧
      overlapping.callSymbol "math.add.exact" [] = overlapping.callFunction "math" "add.exact" [] ∧
      (overlapping.callSymbol "math.add.exact" []).1 = .ok (.bool true) := by
  intro m
  have hfirst := Reachable.exports_withModule ⟨{}, .refl⟩ "math" "add.exact" (.bool true)
  have hexports : overlapping.Exports m "add.exact" _ :=
    hfirst.withModule (by decide) "exact" (.bool false)
  have hdot : '.' ∉ m.name.toList := by decide
  have hagree := (symbol_calls_agree_iff "math" "add.exact").2.2 hdot overlapping m _ hexports rfl
  exact ⟨⟨_, hexports⟩, hdot, hexports.mem_symbols, hagree [], rfl⟩

/-- A name with a dot does not lead back, though no other module is loaded. -/
theorem dotted_name_misleads :
    let m := oneFunction "app.math" "add" (.tuple [])
    let b := ({} : Bridge).withModule m
    (∃ f, b.Exports m "add" f) ∧ "app.math.add" ∈ m.symbols ∧
      (b.callFunction "app.math" "add" []).1 = .ok (.array []) ∧
      b.callSymbol "app.math.add" [] = (.error (.unknownModule "app"), b) := by
  intro m b
  have hexports := Reachable.exports_withModule ⟨{}, .refl⟩ "app.math" "add" (.tuple [])
  exact ⟨⟨_, hexports⟩, hexports.mem_symbols, rfl, rfl⟩

end Bridge
end ScriptBridge
