import ScriptBridge.Proofs.Bridge.Tidiness
import ScriptBridge.Proofs.Class.Ancestry

/-! # What is defined on a bridge

Classes are defined and modules are loaded one at a time, by the embedding program or by a body, and
none ever goes: `Bridge.Step.extended`. So what a definition and a loading keep holds however the
bridge was used: `Bridge.Reachable.definitions_induction`.

* `Bridge.Reachable.sound_classes`: the hierarchy is sound.
* `Bridge.Reachable.find?_modules`: a module stands under its own name.
-/

namespace ScriptBridge.Bridge
set_option autoImplicit false

variable {b b' : Bridge}

/-- The classes and the modules. -/
def definitions (b : Bridge) : Hierarchy × Table String Module := (b.classes, b.modules)

/-! ## Operations -/

theorem definitions_wrap (b : Bridge) (o : InstanceHandle) :
    (b.wrap o).2.definitions = b.definitions := by
  refine wrap_induction (P := fun c => c.definitions = b.definitions) o (fun c w _ hc => ?_)
    (fun _ hc => hc) rfl
  have hrelease : (c.release [o.identity] w).2.definitions = c.definitions :=
    Prod.ext (c.classes_release _ w) (c.modules_release _ w)
  exact hrelease.trans hc

theorem definitions_wrapAll (b : Bridge) (os : List InstanceHandle) :
    (b.wrapAll os).2.definitions = b.definitions :=
  wrapAll_induction (P := fun c => c.definitions = b.definitions)
    (fun c o hc => (c.definitions_wrap o).trans hc) os rfl

theorem definitions_toScript (b : Bridge) (n : Native.Value) :
    (b.toScript n).2.definitions = b.definitions := by
  obtain ⟨done, -, -, hstate, -⟩ := n.toScript_wraps b
  rw [hstate, definitions_wrapAll]

theorem definitions_collect (b : Bridge) : b.collect.2.definitions = b.definitions :=
  Prod.ext b.classes_collect b.modules_collect

theorem definitions_getProperty (b : Bridge) (v : Script.Value) (name : String) :
    (b.getProperty v name).2.definitions = b.definitions := by
  unfold getProperty
  split
  · rfl
  · split
    · exact b.definitions_toScript _
    · rfl
  · split <;> rfl

theorem definitions_setProperty (b : Bridge) (receiver : Script.Value) (name : String)
    (v : Script.Value) : (b.setProperty receiver name v).2.definitions = b.definitions := by
  unfold setProperty
  split
  · rfl
  · unfold assign
    repeat' split
    all_goals rfl
  · rfl

theorem definitions_collectUntil (b : Bridge) (holds : Nat → Bridge → Bool) :
    (b.collectUntil holds).2.definitions = b.definitions :=
  pursue_induction (P := fun c => c.definitions = b.definitions)
    (fun c hc => c.definitions_collect.trans hc) holds _ _ rfl

/-! ## Definitions and loadings -/

/-- What is defined when one class has been defined, or one module loaded, or neither. -/
inductive Extended (classes : Hierarchy) (modules : Table String Module) :
    Hierarchy × Table String Module → Prop where
  | same : Extended classes modules (classes, modules)
  | defined {c : NativeClass} {classes' : Hierarchy} (h : classes.define c = .ok classes') :
    Extended classes modules (classes', modules)
  | loaded (m : Module) : Extended classes modules (classes, modules.insert m.name m)

theorem extended_of_eq (h : b'.definitions = b.definitions) :
    Extended b.classes b.modules b'.definitions := by
  rw [h]
  exact .same

/-- A class whose base is missing is not there. -/
theorem extended_defineClass (b : Bridge) (c : NativeClass) :
    Extended b.classes b.modules (b.defineClass c).2.definitions := by
  unfold Bridge.defineClass
  split
  next hdefine => exact .defined hdefine
  · exact .same

/-- A module that cannot be loaded is not there. -/
theorem extended_loadModule (b : Bridge) (m : Module) :
    Extended b.classes b.modules (b.loadModule m).2.definitions := by
  obtain ⟨done, -, -, hstate, -⟩ := wraps_convertExports m.values b.openScope
  have hscope : ((convertExports m.values).run b.openScope).2.closeScope.definitions =
      b.definitions := by
    rw [hstate]
    exact b.openScope.definitions_wrapAll done
  simp only [loadModule, withScope]
  generalize ((convertExports m.values).run b.openScope).2.closeScope = c at hscope ⊢
  obtain ⟨hclasses, hmodules⟩ := Prod.ext_iff.1 hscope
  split
  · exact extended_of_eq hscope
  next entries _ =>
    have hloaded : Bridge.definitions { c.mapEngine (·.setGlobal m.name (.map entries)) with
        modules := c.modules.insert m.name m } = (b.classes, b.modules.insert m.name m) :=
      Prod.ext hclasses (congrArg (·.insert m.name m) hmodules)
    exact hloaded ▸ .loaded m

/-- **An operation without a call defines one class, loads one module, or leaves the definitions.**
-/
theorem extended_answer (op : Operation) (b : Bridge) :
    Extended b.classes b.modules (answer none op b).2.definitions := by
  cases op with
  | getProperty receiver name => exact extended_of_eq (b.definitions_getProperty receiver name)
  | setProperty receiver name v => exact extended_of_eq (b.definitions_setProperty receiver name v)
  | callScript function args => cases function <;> exact .same
  | toScript n => exact extended_of_eq (b.definitions_toScript n)
  | wrap o => exact extended_of_eq (b.definitions_wrap o)
  | collect => exact extended_of_eq b.definitions_collect
  | collectUntil holds => exact extended_of_eq (b.definitions_collectUntil (seenBy holds))
  | defineClass name captured => exact b.extended_defineClass _
  | loadModule name captured => exact b.extended_loadModule _
  | _ => exact .same

/-! ## Uses -/

theorem Step.extended (h : Step 0 b b') : Extended b.classes b.modules b'.definitions := by
  cases h with
  | ask op => exact extended_answer op b
  | defineClass c => exact b.extended_defineClass c
  | loadModule m => exact b.extended_loadModule m
  | collectUntil holds => exact extended_of_eq (b.definitions_collectUntil holds)
  | hold | letGo | dropsMayPanic => exact .same

/-- **What every definition keeps holds however a bridge was used.** -/
theorem Reachable.definitions_induction {P : Hierarchy → Table String Module → Prop}
    (hempty : P {} .empty)
    (hclass : ∀ {classes modules c classes'}, classes.define c = .ok classes' →
      P classes modules → P classes' modules)
    (hmodule : ∀ {classes modules} m, P classes modules → P classes (modules.insert m.name m))
    (h : b.Reachable) : P b.classes b.modules := by
  obtain ⟨options, hrun⟩ := h
  replace hrun := hrun.later
  induction hrun with
  | refl => exact hempty
  | @tail x y _ hstep ih =>
    have hkept : ∀ {d}, Extended x.classes x.modules d → P d.1 d.2
      | _, .same => ih
      | _, .defined hdefine => hclass hdefine ih
      | _, .loaded m => hmodule m ih
    exact hkept hstep.1.extended

/-- **The hierarchy of a bridge is sound.** -/
theorem Reachable.sound_classes (h : b.Reachable) : b.classes.Sound :=
  h.definitions_induction (P := fun classes _ => classes.Sound) Hierarchy.sound_empty
    (fun hdefine hsound => hsound.define hdefine) (fun _ hsound => hsound)

/-- **A loaded module stands under its own name.** -/
theorem Reachable.find?_modules (h : b.Reachable) {m : Module} (hm : m ∈ b.modules.values) :
    b.modules.find? m.name = some m := by
  have hnamed : ∀ s m, b.modules.find? s = some m → m.name = s := by
    refine h.definitions_induction (P := fun _ modules => ∀ s m, modules.find? s = some m →
      m.name = s) (fun s m hs => ?_) (fun _ hmodules => hmodules) fun m' hmodules s m hs => ?_
    · cases hs
    · rw [Table.find?_insert] at hs
      split at hs
      next heq =>
        cases hs
        exact heq.symm
      · exact hmodules s m hs
  obtain ⟨s, hs⟩ := (b.modules.mem_values_iff m).1 hm
  rwa [hnamed s m hs]

end ScriptBridge.Bridge
