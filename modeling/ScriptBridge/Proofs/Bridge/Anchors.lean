import ScriptBridge.Proofs.Bridge.Runs
import ScriptBridge.Proofs.Host.Scopes

/-! # Anchors

Most reasons for which a bridge keeps an object can be taken away again: a global is removed, a
property assigned, an edge dropped, a binding made weak. What is pinned in an open scope stays
pinned until the scope closes, and a function never loses what it captured. An object that is kept
for such reasons is anchored.

* `Bridge.AnchoredBelow d` says so of the `d` outermost scopes, `Bridge.Anchored` of all that are
  open.
* `Bridge.AnchoredBelow.moves`: an anchored object stays alive, and anchored, as long as none of the
  scopes closes.
-/

namespace ScriptBridge
set_option autoImplicit false

/-! ## Pins -/

/-- The value is pinned in one of the `d` outermost scopes. -/
def Roots.PinsBelow (r : Roots) (d : Nat) (v : Script.Value) : Prop :=
  ∃ i scope, i < d ∧ r.scopes[i]? = some scope ∧ v ∈ scope

namespace Roots

variable {r : Roots} {d : Nat} {v : Script.Value}

theorem PinsBelow.mono {d' : Nat} (h : r.PinsBelow d v) (hd : d ≤ d') : r.PinsBelow d' v := by
  obtain ⟨i, scope, hi, hscope, hv⟩ := h
  exact ⟨i, scope, Nat.lt_of_lt_of_le hi hd, hscope, hv⟩

theorem PinsBelow.of_append {r' : Roots} {tail : List HandleScope}
    (h : r.PinsBelow d v) (hscopes : r'.scopes = r.scopes ++ tail) : r'.PinsBelow d v := by
  obtain ⟨i, scope, hi, hscope, hv⟩ := h
  refine ⟨i, scope, hi, ?_, hv⟩
  rw [hscopes, List.getElem?_append_left (List.getElem?_eq_some_iff.1 hscope).1, hscope]

theorem PinsBelow.openScope (h : r.PinsBelow d v) : r.openScope.PinsBelow d v := by
  have hscopes : r.openScope.scopes = r.scopes ++ [[]] := by simp [scopes, Roots.openScope]
  exact h.of_append hscopes

/-- Closing a scope unpins nothing further out. -/
theorem PinsBelow.closeScope (h : r.PinsBelow d v) (hd : d ≤ r.closeScope.2.depth) :
    r.closeScope.2.PinsBelow d v := by
  obtain ⟨i, scope, hi, hscope, hv⟩ := h
  refine ⟨i, scope, hi, ?_, hv⟩
  have hsame := congrArg (·[i]?) (take_scopes_closeScope hd)
  simpa only [List.getElem?_take_of_lt hi, hscope] using hsame

/-- A pin goes to the end of the innermost scope. -/
theorem scopes_pin (r : Roots) : ∃ outer innermost, r.scopes = outer ++ [innermost] ∧
    ∀ v : Script.Value, (r.pin v).scopes =
      if v.objects.isEmpty then r.scopes else outer ++ [innermost ++ [v]] := by
  refine ⟨r.outer, r.innermost, r.scopes_eq, fun v => ?_⟩
  rw [scopes_eq, outer_pin, innermost_pin, scopes_eq]
  cases hobjects : v.objects <;> rfl

theorem PinsBelow.pin (h : r.PinsBelow d v) (v' : Script.Value) : (r.pin v').PinsBelow d v := by
  obtain ⟨i, scope, hi, hscope, hv⟩ := h
  obtain ⟨outer, innermost, hscopes, hpin⟩ := r.scopes_pin
  unfold PinsBelow
  rw [hpin v']
  split
  · exact ⟨i, scope, hi, hscope, hv⟩
  · rw [hscopes] at hscope
    rcases Nat.lt_or_ge i outer.length with hlt | hge
    · rw [List.getElem?_append_left hlt] at hscope
      exact ⟨i, scope, hi, by rw [List.getElem?_append_left hlt, hscope], hv⟩
    · rw [List.getElem?_append_right hge, List.getElem?_singleton] at hscope
      split at hscope
      next hz =>
        obtain rfl := Option.some.inj hscope
        refine ⟨i, innermost ++ [v'], hi, ?_, List.mem_append_left _ hv⟩
        rw [List.getElem?_append_right hge, hz]
        rfl
      next => cases hscope

/-- A value that names an object is pinned in the innermost scope. -/
theorem pinsBelow_pin (r : Roots) {v : Script.Value} {id : ObjectId} (h : v.Names id) :
    (r.pin v).PinsBelow r.depth v := by
  obtain ⟨outer, innermost, hscopes, hpin⟩ := r.scopes_pin
  have hlen : r.depth = outer.length + 1 := by rw [← length_scopes, hscopes]; simp
  have hsome : v.objects.isEmpty = false := by
    rw [List.isEmpty_eq_false_iff_exists_mem]
    exact ⟨id, h.mem_objects⟩
  refine ⟨outer.length, innermost ++ [v], by omega, ?_, by simp⟩
  rw [hpin v, hsome]
  simp

theorem PinsBelow.mem_objects {id : ObjectId} (h : r.PinsBelow d v) (hn : v.Names id) :
    id ∈ r.objects := by
  obtain ⟨i, scope, -, hscope, hv⟩ := h
  exact (r.mem_objects_iff id).2 (.inl ⟨scope, List.mem_of_getElem? hscope, v, hv, hn⟩)

end Roots

namespace Bridge

/-! ## Anchored objects -/

/-- A live object that a value pinned in one of the `d` outermost scopes names, or one captured by
an anchored function. -/
inductive AnchoredBelow (d : Nat) (b : Bridge) : ObjectId → Prop where
  | pinned {v : Script.Value} {id : ObjectId} :
      b.engine.roots.PinsBelow d v → v.Names id → b.isAlive id → AnchoredBelow d b id
  | captured {p id : ObjectId} {e : LiveObject} {v : Script.Value} :
      AnchoredBelow d b p → b.engine.heap.get? p = some e → v ∈ e.object.captures → v.Names id →
        b.isAlive id → AnchoredBelow d b id

/-- Anchored in the open scopes. -/
abbrev Anchored (b : Bridge) (id : ObjectId) : Prop := b.AnchoredBelow b.depth id

variable {d : Nat} {b b' : Bridge} {id : ObjectId}

theorem AnchoredBelow.isAlive (h : b.AnchoredBelow d id) : b.isAlive id := by
  cases h <;> assumption

theorem AnchoredBelow.mono {d' : Nat} (h : b.AnchoredBelow d id) (hd : d ≤ d') :
    b.AnchoredBelow d' id := by
  induction h with
  | pinned hp hn hc => exact .pinned (hp.mono hd) hn hc
  | captured _ he hv hn hc ih => exact .captured ih he hv hn hc

/-- Every collection reaches what is anchored. -/
theorem AnchoredBelow.reached (h : b.AnchoredBelow d id) (r : Retention) :
    b.engine.Reached r id := by
  induction h with
  | pinned hp hn hc => exact .root (List.mem_append_left _ (hp.mem_objects hn)) hc
  | captured _ he hv hn hc ih =>
    refine .step ih (List.mem_append_left _ ?_) hc
    exact (Heap.mem_references_iff _ _ _).2 ⟨_, he, .inr ⟨_, hv, hn⟩⟩

/-- The two bridges have the same pins, and the same objects with the same captures. -/
structure SameAnchors (b b' : Bridge) : Prop where
  scopes : b'.engine.roots.scopes = b.engine.roots.scopes
  objects : ∀ id, (b'.engine.heap.get? id).map (·.object) = (b.engine.heap.get? id).map (·.object)

theorem SameAnchors.symm (h : SameAnchors b b') : SameAnchors b' b :=
  ⟨h.scopes.symm, fun id => (h.objects id).symm⟩

theorem depth_of_scopes (h : b'.engine.roots.scopes = b.engine.roots.scopes) :
    b'.depth = b.depth := by
  rw [depth, ← Roots.length_scopes, h, Roots.length_scopes]

theorem SameAnchors.depth (h : SameAnchors b b') : b'.depth = b.depth := depth_of_scopes h.scopes

theorem SameAnchors.isAlive (h : SameAnchors b b') (hc : b.isAlive id) : b'.isAlive id := by
  obtain ⟨e, he⟩ := Heap.contains_iff.1 hc
  have hid := h.objects id
  rw [he] at hid
  obtain ⟨e', he', -⟩ := Option.map_eq_some_iff.1 hid
  exact Heap.contains_of_get? he'

theorem SameAnchors.anchored (h : SameAnchors b b') (ha : b.Anchored id) : b'.Anchored id := by
  have hdepth := h.depth
  induction ha with
  | pinned hp hn hc =>
    obtain ⟨i, scope, hi, hscope, hv⟩ := hp
    exact .pinned ⟨i, scope, by rw [hdepth]; exact hi, by rw [h.scopes, hscope], hv⟩ hn
      (h.isAlive hc)
  | captured _ he hv hn hc ih =>
    have hobjects := congrArg (Option.map (·.object)) he
    rw [← h.objects] at hobjects
    obtain ⟨e', he', hobject⟩ := Option.map_eq_some_iff.1 hobjects
    exact .captured ih he' (by rw [hobject]; exact hv) hn (h.isAlive hc)

/-! ## Anchored objects stay -/

theorem Move.pinsBelow (h : Move b b') (hd' : d ≤ b'.depth) {v : Script.Value}
    (hp : b.engine.roots.PinsBelow d v) : b'.engine.roots.PinsBelow d v := by
  cases h with
  | openScope => exact hp.openScope
  | closeScope =>
    rw [depth, roots_closeScope] at hd'
    rw [roots_closeScope]
    exact hp.closeScope hd'
  | pin v' => exact hp.pin v'
  | wrapFresh o => exact hp.pin _
  | release => rw [roots_release]; exact hp
  | _ => exact hp

theorem AnchoredBelow.get?_move (h : b.AnchoredBelow d id) (hm : Move b b')
    (hw : b.engine.heap.WellFormed) {e : LiveObject} (he : b.engine.heap.get? id = some e) :
    ∃ e', b'.engine.heap.get? id = some e' ∧ e'.object = e.object := by
  rcases hm.get?_cases hw he with hkept | ⟨r, -, hnot⟩
  · exact hkept
  · exact absurd (h.reached r) hnot

theorem AnchoredBelow.isAlive_move (h : b.AnchoredBelow d id) (hm : Move b b')
    (hw : b.engine.heap.WellFormed) : b'.isAlive id := by
  obtain ⟨e, he⟩ := Heap.contains_iff.1 h.isAlive
  obtain ⟨e', he', -⟩ := h.get?_move hm hw he
  exact Heap.contains_of_get? he'

theorem AnchoredBelow.move (h : b.AnchoredBelow d id) (hm : Move b b')
    (hw : b.engine.heap.WellFormed) (hd' : d ≤ b'.depth) : b'.AnchoredBelow d id := by
  induction h with
  | pinned hp hn hc =>
    exact .pinned (hm.pinsBelow hd' hp) hn ((AnchoredBelow.pinned hp hn hc).isAlive_move hm hw)
  | captured hanch he hv hn hc ih =>
    obtain ⟨e', he', hobject⟩ := hanch.get?_move hm hw he
    exact .captured ih he' (by rw [hobject]; exact hv) hn
      ((AnchoredBelow.captured hanch he hv hn hc).isAlive_move hm hw)

/-- An object is anchored until a scope that anchors it closes. -/
theorem AnchoredBelow.moves (h : b.AnchoredBelow d id) (hm : Moves d b b')
    (hw : b.engine.heap.WellFormed) : b'.AnchoredBelow d id := by
  induction hm with
  | refl => exact h
  | tail hprev hstep ih => exact ih.move hstep.1 (Moves.wellFormed hprev hw) hstep.2

end Bridge
end ScriptBridge
