import ScriptBridge.Proofs.Bridge.Identity
import ScriptBridge.Proofs.Bridge.Severing

/-! # How long a wrapper lasts that was handed out

A fresh wrapper is pinned in the innermost scope, so it lasts until that scope closes. A wrapper
that is there already is handed out as it is, and lasts only if it is anchored anyway.

* `Bridge.Secured` says of an instance that its wrapper, if it is alive, is anchored.
* `Bridge.secured_wrapAll_iff`: wrapping secures no instance whose wrapper is not anchored already,
  and unsecures none.
* `Bridge.handed_out_lasts_iff` is what follows for the wrappers that `Bridge.wrap` and
  `Bridge.toScript` hand out: exactly those of secured instances last.
-/

namespace ScriptBridge
set_option autoImplicit false

theorem Roots.pinsBelow_of_pin {r : Roots} {d : Nat} {v v' : Script.Value}
    (h : (r.pin v).PinsBelow d v') : v' = v ∨ r.PinsBelow d v' := by
  obtain ⟨i, scope, hi, hscope, hv⟩ := h
  obtain ⟨outer, innermost, hscopes, hpin⟩ := r.scopes_pin
  rw [hpin v] at hscope
  split at hscope
  · exact .inr ⟨i, scope, hi, hscope, hv⟩
  · rcases Nat.lt_or_ge i outer.length with hlt | hge
    · rw [List.getElem?_append_left hlt] at hscope
      exact .inr ⟨i, scope, hi, by rw [hscopes, List.getElem?_append_left hlt, hscope], hv⟩
    · rw [List.getElem?_append_right hge, List.getElem?_singleton] at hscope
      split at hscope
      next hz =>
        obtain rfl := Option.some.inj hscope
        rcases List.mem_append.1 hv with hold | hnew
        · refine .inr ⟨i, innermost, hi, ?_, hold⟩
          rw [hscopes, List.getElem?_append_right hge, hz]
          rfl
        · exact .inl (List.mem_singleton.1 hnew)
      next => cases hscope

namespace Bridge

variable {d : Nat} {b b' c : Bridge} {o a : InstanceHandle} {w id : ObjectId}

/-! ## One wrapping -/

theorem wrapFresh_fst (hnone : b.registry.wrapper? o = none) :
    (b.wrapFresh o).1 = (b.engine.heap.allocate (.wrapper o.className)).1 := by
  change (b.registry.bind o (b.engine.heap.allocate (.wrapper o.className)).1).1 = _
  rw [Registry.bind_of_none hnone]

theorem depth_wrapFresh (b : Bridge) (o : InstanceHandle) : (b.wrapFresh o).2.depth = b.depth :=
  b.depth_pin _

theorem anchored_wrapFresh (hw : b.engine.heap.WellFormed) (hnone : b.registry.wrapper? o = none)
    (hl : (b.wrapFresh o).2.engine.heap.NamesLast) :
    (b.wrapFresh o).2.Anchored (b.wrapFresh o).1 := by
  have hbound := bound_wrapFresh hw hnone hl
  rw [Anchored, depth_wrapFresh]
  refine .pinned (v := .wrapper (b.wrapFresh o).1) ?_ (.wrapper _) hbound.alive
  rw [wrapFresh_fst hnone]
  exact b.engine.roots.pinsBelow_pin (.wrapper _)

/-- A fresh wrapper anchors itself and nothing else. -/
theorem anchored_of_wrapFresh (hw : b.engine.heap.WellFormed)
    (hl : (b.wrapFresh o).2.engine.heap.NamesLast) (h : (b.wrapFresh o).2.Anchored id) :
    id = (b.engine.heap.allocate (.wrapper o.className)).1 ∨ b.Anchored id := by
  have hheap : (b.wrapFresh o).2.engine.heap =
      (b.engine.heap.allocate (.wrapper o.className)).2 := rfl
  rw [Anchored, depth_wrapFresh] at h
  have halive : ∀ {id}, (b.wrapFresh o).2.isAlive id →
      id = (b.engine.heap.allocate (.wrapper o.className)).1 ∨ b.isAlive id := by
    intro id hc
    -- Allocation makes nothing alive but the new wrapper.
    refine or_iff_not_imp_left.2 fun hne => ?_
    rw [isAlive, Engine.isAlive, Heap.contains, hheap, hw.get?_allocate_of_ne _ hne] at hc
    exact hc
  induction h with
  | @pinned v id hp hn hc =>
    rcases halive hc with hnew | hold
    · exact .inl hnew
    · rcases Roots.pinsBelow_of_pin hp with rfl | hp
      · cases hn
        exact .inl rfl
      · exact .inr (.pinned hp hn hold)
  | @captured p id e v hanch he hv hn hc ih =>
    rcases halive hc with hnew | hold
    · exact .inl hnew
    · rcases ih with rfl | hp
      -- A wrapper captures nothing, so the new one anchors only itself.
      · rw [hheap, hw.get?_allocate_self _ hl.addressable] at he
        obtain rfl := Option.some.inj he
        cases hv
      · rw [hheap, hw.get?_allocate_of_ne _ (hw.ne_allocate _ hl hp.isAlive)] at he
        exact .inr (.captured hp he hv hn hold)

theorem depth_wrap (b : Bridge) (o : InstanceHandle) : (b.wrap o).2.depth = b.depth := by
  refine wrap_induction (P := fun c => c.depth = b.depth) o (fun c w _ hc => ?_) (fun c hc => ?_) rfl
  · exact (congrArg Roots.depth (c.roots_release [o.identity] w)).trans hc
  · exact (c.depth_wrapFresh o).trans hc

theorem anchored_wrap (h : b.Sound) (o : InstanceHandle) (hid : b.Anchored id) :
    (b.wrap o).2.Anchored id := by
  rw [Anchored, depth_wrap]
  exact AnchoredBelow.moves hid (moves_wrap (Nat.le_refl _) o) h.wellFormed

/-- Wrapping anchors nothing that was there before. -/
theorem anchored_of_wrap (h : b.Sound) (hl : (b.wrap o).2.engine.heap.NamesLast)
    (hid : (b.wrap o).2.Anchored id) (hc : b.isAlive id) : b.Anchored id := by
  rcases h.wrap_cases o with ⟨w, -, heq⟩ | ⟨c, hheap, hroots, -, hsound, -, heq⟩
  · rw [heq] at hid
    exact hid
  · rw [heq] at hid hl
    have hsame : SameAnchors c b := ⟨by rw [hroots], fun _ => by rw [hheap]⟩
    rcases anchored_of_wrapFresh hsound.wellFormed hl hid with hnew | hold
    · exact absurd hnew (hsound.wellFormed.ne_allocate _ hl (hsame.symm.isAlive hc))
    · exact hsame.anchored hold

/-- A wrapper that an instance has after a wrapping it had before, or it is the fresh one. -/
theorem bound_of_wrap (h : b.Sound) (hl : (b.wrap a).2.engine.heap.NamesLast)
    (hb : (b.wrap a).2.Bound o w) : b.Bound o w ∨ (b.wrap a).2.Anchored w := by
  rcases h.wrap_cases a with ⟨w', -, heq⟩ | ⟨c, hheap, hroots, hold, hsound, hnone, heq⟩
  · rw [heq] at hb
    exact .inl hb
  · rw [heq] at hb hl ⊢
    by_cases hw : w = (c.engine.heap.allocate (.wrapper a.className)).1
    · rw [hw, ← wrapFresh_fst hnone]
      exact .inr (anchored_wrapFresh hsound.wellFormed hnone hl)
    · left
      rcases Registry.wrapper?_of_bind hnone hb.wrapper with hnew | hwrapper
      · exact absurd hnew hw
      · refine ⟨hold o w hwrapper, ?_⟩
        have halive := hb.alive
        change ((c.engine.heap.allocate (.wrapper a.className)).2.get? w).isSome at halive
        rwa [hsound.wellFormed.get?_allocate_of_ne _ hw, hheap] at halive

/-! ## Secured instances -/

/-- The wrapper of the instance, if it is alive, is anchored. -/
def Secured (b : Bridge) (o : InstanceHandle) : Prop := ∀ w, b.Bound o w → b.Anchored w

theorem secured_wrap_iff (h : b.Sound) (hl : (b.wrap a).2.engine.heap.NamesLast) :
    (b.wrap a).2.Secured o ↔ b.Secured o := by
  constructor
  · intro hs w hb
    exact anchored_of_wrap h hl (hs w (hb.wrap h.wellFormed a)) hb.alive
  · intro hs w hb
    rcases bound_of_wrap h hl hb with hold | hnew
    · exact anchored_wrap h a (hs w hold)
    · exact hnew

theorem Sound.of_wrapAll {rest : List InstanceHandle} (h : b.Sound)
    (hl : (b.wrapAll (a :: rest)).2.engine.heap.NamesLast) :
    (b.wrap a).2.engine.heap.NamesLast ∧ (b.wrap a).2.Sound := by
  have hw := (moves_wrap (Nat.zero_le _) a).wellFormed h.wellFormed
  have hmid : (b.wrap a).2.engine.heap.NamesLast :=
    hl.of_grows ((moves_wrapAll rest (Nat.zero_le _)).grows hw)
  exact ⟨hmid, h.moves (moves_wrap (Nat.zero_le _) a) hmid⟩

/-- Wrapping secures no instance that has a living wrapper, and unsecures none. -/
theorem secured_wrapAll_iff (os : List InstanceHandle) (h : b.Sound)
    (hl : (b.wrapAll os).2.engine.heap.NamesLast) :
    (b.wrapAll os).2.Secured o ↔ b.Secured o := by
  induction os generalizing b with
  | nil => exact Iff.rfl
  | cons a rest ih =>
    obtain ⟨hmid, hsound⟩ := h.of_wrapAll hl
    exact (ih hsound hl).trans (secured_wrap_iff h hmid)

theorem depth_wrapAll (os : List InstanceHandle) (b : Bridge) :
    (b.wrapAll os).2.depth = b.depth :=
  wrapAll_induction (P := fun c => c.depth = b.depth) (fun c a hc => (c.depth_wrap a).trans hc) os rfl

theorem depth_toScript (b : Bridge) (v : Native.Value) : (b.toScript v).2.depth = b.depth := by
  obtain ⟨done, rest, -, hstate, -⟩ := Native.Value.toScript_wraps b v
  rw [hstate, depth_wrapAll]

theorem collections_wrapAll (os : List InstanceHandle) (b : Bridge) :
    (b.wrapAll os).2.collections = b.collections :=
  wrapAll_induction (P := fun c => c.collections = b.collections)
    (fun c a hc => (c.collections_wrap a).trans hc) os rfl

/-- The instances end up with living wrappers, which are those that were handed out. -/
theorem bound_wrapAll (os : List InstanceHandle) (h : b.Sound)
    (hl : (b.wrapAll os).2.engine.heap.NamesLast) :
    (∀ o ∈ os, ∃ w, (b.wrapAll os).2.Bound o w) ∧
      ∀ w ∈ (b.wrapAll os).1, ∃ o ∈ os, (b.wrapAll os).2.Bound o w := by
  induction os generalizing b with
  | nil => exact ⟨by simp, by simp [wrapAll]⟩
  | cons a rest ih =>
    obtain ⟨hmid, hsound⟩ := h.of_wrapAll hl
    have hfirst : ((b.wrap a).2.wrapAll rest).2.Bound a (b.wrap a).1 :=
      (bound_wrap h hmid).moves (moves_wrapAll rest (Nat.zero_le _)) hsound.wellFormed
        (collections_wrapAll rest _)
    obtain ⟨hall, hids⟩ := ih hsound hl
    refine ⟨fun o ho => ?_, fun w hw => ?_⟩
    · rcases List.mem_cons.1 ho with rfl | ho
      · exact ⟨_, hfirst⟩
      · exact hall o ho
    · rcases List.mem_cons.1 hw with rfl | hw
      · exact ⟨a, List.mem_cons_self, hfirst⟩
      · obtain ⟨o, ho, hb⟩ := hids w hw
        exact ⟨o, List.mem_cons_of_mem a ho, hb⟩

/-! ## How long a wrapper lasts -/

/-- The object is alive however the bridge is used while at least `d` scopes stay open. -/
def Lasts (b : Bridge) (d : Nat) (id : ObjectId) : Prop :=
  ∀ later, Used d b later → later.isAlive id

/-- A use of the bridge that leaves at least `d` scopes open can make a collection take the object.
-/
def CanPerish (b : Bridge) (d : Nat) (id : ObjectId) : Prop :=
  ∃ later, Used d b later ∧ later.isAlive id ∧ ¬ later.collect.2.isAlive id

theorem Anchored.lasts (h : b.Anchored id) (hw : b.engine.heap.WellFormed) :
    b.Lasts b.depth id := by
  intro later hused
  have hmoves := (hused.later (Nat.le_refl _)).moves (Nat.le_refl _)
  exact (AnchoredBelow.moves h hmoves hw).isAlive

theorem canPerish_of_not_anchored (halive : b.isAlive id) (h : ¬ b.Anchored id) :
    b.CanPerish b.depth id :=
  ⟨performAll 0 b b.severing, (later_severing b).used, isAlive_severing 0 b halive,
    not_isAlive_collect_severing 0 b h⟩

theorem Lasts.not_canPerish (h : b.Lasts d id) (hd : d ≤ b.depth) : ¬ b.CanPerish d id := by
  rintro ⟨later, hused, -, hdead⟩
  have hdepth := (hused.later hd).le_depth hd
  have hcollect : Later d later later.collect.2 :=
    later_ask .collect ((moves_collect hdepth).le_depth hdepth)
  exact hdead (h _ (Relation.ReflTransGen.trans hused hcollect.used))

theorem Lasts.isAlive (h : b.Lasts d id) : b.isAlive id := h b Relation.ReflTransGen.refl

/-- To be anchored is the only way to last. -/
theorem lasts_iff_anchored (hw : b.engine.heap.WellFormed) :
    b.Lasts b.depth id ↔ b.Anchored id := by
  refine ⟨fun h => ?_, fun h => h.lasts hw⟩
  by_contra hnot
  exact h.not_canPerish (Nat.le_refl _) (canPerish_of_not_anchored h.isAlive hnot)

theorem canPerish_iff_not_anchored (hw : b.engine.heap.WellFormed) (halive : b.isAlive id) :
    b.CanPerish b.depth id ↔ ¬ b.Anchored id :=
  ⟨fun h hanch => (hanch.lasts hw).not_canPerish (Nat.le_refl _) h,
    canPerish_of_not_anchored halive⟩

/-- A wrapper that was handed out is anchored exactly if its instance was secured before. -/
theorem Sound.anchored_wrapAll_iff (h : b.Sound) {os : List InstanceHandle}
    (hl : (b.wrapAll os).2.engine.heap.NamesLast) (hb : (b.wrapAll os).2.Bound o w) :
    (b.wrapAll os).2.Anchored w ↔ b.Secured o := by
  rw [← secured_wrapAll_iff os h hl]
  refine ⟨fun hanch w' hb' => ?_, fun hs => hs w hb⟩
  rw [hb'.unique hb]
  exact hanch

theorem Reachable.sound_before (h : b.Reachable) (hm : Moves d b b')
    (hl : b'.engine.heap.NamesLast) : b.Sound :=
  h.sound (hl.of_grows (hm.grows h.wellFormed))

/-- **How long a wrapper lasts that was handed out.** A wrapper that is handed out for an instance,
by itself or inside a converted value, stays alive until the scope closes that was the innermost
one, provided that it is anchored. If it is not, a collection can take it while the scope is still
open. As long as the names last, it is alive and bound to its instance, and it is anchored exactly
if the instance was secured: if it had a living wrapper already, that one was anchored. A converted
value names such wrappers and what was passed through, and nothing else. -/
theorem handed_out_lasts_iff (b : Bridge) (h : b.Reachable) :
    (∀ o, let (w, after) := b.wrap o
      (after.Lasts b.depth w ↔ after.Anchored w) ∧
      (after.isAlive w → (after.CanPerish b.depth w ↔ ¬ after.Anchored w)) ∧
      (after.engine.heap.NamesLast → after.Bound o w ∧ (after.Anchored w ↔ b.Secured o))) ∧
    ∀ v s after, b.toScript v = (.ok s, after) →
      (∀ w, (after.Lasts b.depth w ↔ after.Anchored w) ∧
        (after.isAlive w → (after.CanPerish b.depth w ↔ ¬ after.Anchored w))) ∧
      (after.engine.heap.NamesLast →
        (∀ w, s.Names w → (∃ o ∈ v.handles, after.Bound o w) ∨ w ∈ v.passed) ∧
        ∀ o ∈ v.handles, ∃ w, after.Bound o w ∧ (after.Anchored w ↔ b.Secured o)) := by
  refine ⟨fun o => ?_, fun v s after hconverts => ?_⟩
  · have hmoves := b.moves_wrap (Nat.zero_le _) o
    have hw := hmoves.wellFormed h.wellFormed
    rw [← b.depth_wrap o]
    refine ⟨lasts_iff_anchored hw, canPerish_iff_not_anchored hw, fun hl => ?_⟩
    have hsound := h.sound_before hmoves hl
    have hbound := bound_wrap hsound hl
    have hsingle : (b.wrapAll [o]).2.engine.heap.NamesLast := hl
    exact ⟨hbound, hsound.anchored_wrapAll_iff hsingle hbound⟩
  · obtain ⟨done, rest, hhandles, hstate, hresult⟩ := Native.Value.toScript_wraps b v
    have hmoves := moves_toScript (Nat.zero_le b.depth) v
    have hdepth := b.depth_toScript v
    rw [hconverts] at hstate hresult hmoves hdepth
    obtain ⟨rfl, hnames⟩ := hresult s rfl
    rw [List.append_nil] at hhandles
    have hw := hmoves.wellFormed h.wellFormed
    rw [← hdepth]
    refine ⟨fun w => ⟨lasts_iff_anchored hw, canPerish_iff_not_anchored hw⟩, fun hl => ?_⟩
    have hsound := h.sound_before hmoves hl
    obtain rfl : after = (b.wrapAll done).2 := hstate
    obtain ⟨hall, hids⟩ := bound_wrapAll done hsound hl
    rw [hhandles]
    refine ⟨fun w hmem => (hnames w hmem).imp_left (hids w), fun o ho => ?_⟩
    obtain ⟨w, hbound⟩ := hall o ho
    exact ⟨w, hbound, hsound.anchored_wrapAll_iff hl hbound⟩

/-- The first view of all, twice in a list: there is one wrapper for both, and it lasts. -/
theorem handed_out_lasts_of_first :
    let made := ({} : Bridge).create "View" .view
    let v : Native.Value := .list [.object made.1, .object made.1]
    let after := (made.2.toScript v).2
    made.2.Reachable ∧
      made.2.toScript v = (.ok (.array [.wrapper ⟨0, 0⟩, .wrapper ⟨0, 0⟩]), after) ∧
      after.engine.heap.NamesLast ∧ ∃ w, after.Bound made.1 w ∧ after.Lasts 1 w := by
  intro made v after
  have hreach : made.2.Reachable :=
    ⟨{}, Relation.ReflTransGen.single ⟨0, .ask (.create "View" .view)⟩⟩
  have hconverts :
      made.2.toScript v = (.ok (.array [.wrapper ⟨0, 0⟩, .wrapper ⟨0, 0⟩]), after) := rfl
  have hl : after.engine.heap.NamesLast := ⟨by decide, by decide⟩
  have hnone : made.2.Secured made.1 := fun w hb => by cases hb.wrapper
  obtain ⟨hlasts, hsecured⟩ := (handed_out_lasts_iff made.2 hreach).2 v _ _ hconverts
  obtain ⟨w, hbound, hanch⟩ := (hsecured hl).2 made.1 List.mem_cons_self
  exact ⟨hreach, hconverts, hl, w, hbound, (hlasts w).1.2 (hanch.2 hnone)⟩

/-- A view wrapped in a scope that has closed since is not secured by wrapping it again. -/
theorem rewrapped_perishes :
    let made := ({} : Bridge).openScope.create "View" .view
    let b := (made.2.wrap made.1).2.closeScope
    b.Reachable ∧ b.engine.heap.NamesLast ∧ (b.wrap made.1).2.isAlive (b.wrap made.1).1 ∧
      ¬ (b.wrap made.1).2.collect.2.isAlive (b.wrap made.1).1 := by
  intro made b
  have hopen : Run ({} : Bridge) ({} : Bridge).openScope :=
    Relation.ReflTransGen.single ⟨0, .ask .openScope⟩
  have hmade : Run ({} : Bridge) made.2 := hopen.tail ⟨0, .ask (.create "View" .view)⟩
  have hwrapped : Run ({} : Bridge) (made.2.wrap made.1).2 := hmade.tail ⟨0, .ask (.wrap made.1)⟩
  have hclosed : Run ({} : Bridge) b := hwrapped.tail ⟨0, .ask .closeScope⟩
  exact ⟨⟨{}, hclosed⟩, ⟨by decide, by decide⟩, by decide, by decide⟩

end Bridge
end ScriptBridge
