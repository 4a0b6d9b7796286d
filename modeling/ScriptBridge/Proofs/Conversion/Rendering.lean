import ScriptBridge.Proofs.Conversion.Obstacles
import ScriptBridge.Proofs.Conversion.Repeats
import ScriptBridge.Proofs.Conversion.Wrapping
import ScriptBridge.Proofs.Script.Entries

/-! # What a conversion to script makes of a value

`Native.Value.Renders` tells, constructor by constructor, what script value stands for a native one.

* `Condenses` is what a set does with the conversions of its elements, `Merges` what a map does with
  those of its entries.
* `Bridge.WrapsTo` orders the bridges that a conversion passes through, since instances become
  wrappers on the way.
* `Action.Yields` is closed under the steps of a conversion, and `Native.Value.yields_toScriptAt`
  goes through the constructors.
-/

namespace ScriptBridge
set_option autoImplicit false

/-! ## Sets and maps -/

/-- The values `vs` stand for all of `ws`: they are some of them, in order, no two of them equal, and
each of `ws` equals one of them, or is one of them and holds a NaN, so that it equals nothing. -/
structure Condenses (ws vs : List Script.Value) : Prop where
  sublist : vs.Sublist ws
  distinct : vs.Pairwise fun v w => v.same w = false
  covered : ∀ w ∈ ws, (∃ v ∈ vs, v.same w) ∨
    (w ∈ vs ∧ ∃ x, .float x ∈ w.parts ∧ x.isNaN)

/-- The entries `es` stand for all of `fs`: they have the names of those, in the order in which these
appear first, and with each name the value that has it last. -/
structure Merges (fs es : List (Utf16 × Script.Value)) : Prop where
  names : es.map (·.1) = (fs.map (·.1)).eraseDups
  last : ∀ e ∈ es, ∃ before after, fs = before ++ e :: after ∧ e.1 ∉ after.map (·.1)

theorem condenses_fresh (ws : List Script.Value) : Condenses ws (Script.Value.fresh [] ws) where
  sublist := Script.Value.fresh_sublist [] ws
  distinct := Script.Value.fresh_pairwise .nil ws
  covered := by
    intro w hw
    rcases Script.Value.exists_fresh_same [] hw with hkept | hsame
    · by_cases hnan : ∃ x, .float x ∈ w.parts ∧ x.isNaN
      · exact .inr ⟨hkept, hnan⟩
      · simp only [not_exists, not_and, Bool.not_eq_true] at hnan
        exact .inl ⟨w, hkept, Script.Value.same_self w hnan⟩
    · exact .inl hsame

section
variable {name : Utf16} {v : Script.Value} {fs es : List (Utf16 × Script.Value)}

theorem names_setEntry (name : Utf16) (v : Script.Value) (es : List (Utf16 × Script.Value)) :
    (setEntry name v es).map (·.1) =
      if name ∈ es.map (·.1) then es.map (·.1) else es.map (·.1) ++ [name] := by
  induction es with
  | nil => rfl
  | cons e rest ih =>
    unfold setEntry
    by_cases hname : e.1 = name
    · rw [if_pos hname, if_pos (hname ▸ List.mem_cons_self), List.map_cons, List.map_cons]
    · have hmem : name ∈ (e :: rest).map (·.1) ↔ name ∈ rest.map (·.1) := by
        rw [List.map_cons, List.mem_cons, or_iff_right (Ne.symm hname)]
      rw [if_neg hname, List.map_cons, ih]
      simp only [hmem]
      split <;> rfl

theorem mem_setEntry_of_nodup (hnodup : (es.map (·.1)).Nodup) {e : Utf16 × Script.Value}
    (he : e ∈ setEntry name v es) : e = (name, v) ∨ (e ∈ es ∧ e.1 ≠ name) := by
  induction es with
  | nil => exact .inl (List.mem_singleton.1 he)
  | cons e' rest ih =>
    obtain ⟨hnew, hrest⟩ := List.nodup_cons.1 hnodup
    unfold setEntry at he
    by_cases hname : e'.1 = name
    · rw [if_pos hname] at he
      rcases List.mem_cons.1 he with rfl | he
      · exact .inl (Prod.ext hname rfl)
      · refine .inr ⟨List.mem_cons_of_mem _ he, ?_⟩
        rintro rfl
        exact hnew (List.mem_map.2 ⟨e, he, hname.symm⟩)
    · rw [if_neg hname] at he
      rcases List.mem_cons.1 he with rfl | he
      · exact .inr ⟨List.mem_cons_self, hname⟩
      · exact (ih hrest he).imp_right fun h => ⟨List.mem_cons_of_mem _ h.1, h.2⟩

/-- All the entries set, one after another. -/
def setEntries (es fs : List (Utf16 × Script.Value)) : List (Utf16 × Script.Value) :=
  fs.foldl (fun es f => setEntry f.1 f.2 es) es

theorem Merges.nodup (h : Merges fs es) : (es.map (·.1)).Nodup := by
  rw [h.names]
  exact nodup_eraseDups _

theorem Merges.setEntry (h : Merges fs es) (f : Utf16 × Script.Value) :
    Merges (fs ++ [f]) (setEntry f.1 f.2 es) where
  names := by
    rw [names_setEntry, List.map_append, List.map_singleton, eraseDups_concat, h.names]
    simp only [List.mem_eraseDups]
  last := by
    intro e he
    rcases mem_setEntry_of_nodup h.nodup he with rfl | ⟨he, hname⟩
    · exact ⟨fs, [], rfl, List.not_mem_nil⟩
    · obtain ⟨before, after, rfl, hafter⟩ := h.last e he
      refine ⟨before, after ++ [f], by simp, ?_⟩
      exact not_mem_map_concat.2 ⟨hafter, hname⟩

theorem merges_setEntries (fs : List (Utf16 × Script.Value)) : Merges fs (setEntries [] fs) := by
  induction fs using List.reverseRecOn with
  | nil => exact ⟨rfl, fun _ he => nomatch he⟩
  | append_singleton fs f ih =>
    rw [setEntries, List.foldl_append]
    exact ih.setEntry f

/-- Entries with names of their own stay as they are. -/
theorem Merges.eq_of_nodup (h : Merges fs es) (hnodup : (fs.map (·.1)).Nodup) : es = fs := by
  have hnames : es.map (·.1) = fs.map (·.1) := h.names.trans (eraseDups_of_nodup hnodup)
  have hmem : ∀ e ∈ es, e ∈ fs := by
    intro e he
    obtain ⟨before, after, rfl, -⟩ := h.last e he
    exact List.mem_append_right before List.mem_cons_self
  refine List.ext_getElem (by simpa using congrArg List.length hnames) fun k hk hk' => ?_
  refine List.inj_on_of_nodup_map hnodup (hmem _ (List.getElem_mem hk)) (List.getElem_mem hk') ?_
  have hname := congrArg (fun names => names[k]?) hnames
  simpa [hk, hk'] using hname

end

/-! ## The bridges on the way -/

namespace Bridge

/-- The second bridge is the first after some instances were wrapped. -/
def WrapsTo (b c : Bridge) : Prop := ∃ os, c = (b.wrapAll os).2

theorem WrapsTo.refl (b : Bridge) : b.WrapsTo b := ⟨[], rfl⟩

theorem WrapsTo.trans {b c d : Bridge} (h : b.WrapsTo c) (h' : c.WrapsTo d) : b.WrapsTo d := by
  obtain ⟨os, rfl⟩ := h
  obtain ⟨os', rfl⟩ := h'
  exact ⟨os ++ os', by rw [wrapAll_append]⟩

theorem wrapsTo_wrap (b : Bridge) (o : InstanceHandle) : b.WrapsTo (b.wrap o).2 := ⟨[o], rfl⟩

end Bridge

/-! ## Steps of a conversion -/

namespace Action

variable {α β : Type} {root last : Bridge} {x : Action α} {Q : α → Prop} {R : β → Prop}

/-- Where it succeeds, the action has wrapped instances, and `Q` holds of its outcome if it was met
between two bridges. -/
def Yields (root last : Bridge) (x : Action α) (Q : α → Prop) : Prop :=
  ∀ b a after, x.run b = (.ok a, after) →
    b.WrapsTo after ∧ (root.WrapsTo b → after.WrapsTo last → Q a)

theorem Yields.pure {a : α} (h : Q a) : Yields root last (Pure.pure a) Q := by
  intro b a' after hrun
  obtain ⟨ha, rfl⟩ := Prod.mk.inj hrun
  obtain rfl := Except.ok.inj ha
  exact ⟨.refl b, fun _ _ => h⟩

theorem Yields.throw (err : BridgeError) : Yields root last (throw err : Action α) Q :=
  fun _ _ _ hrun => nomatch congrArg Prod.fst hrun

theorem Yields.bind {f : α → Action β} (hx : Yields root last x Q)
    (hf : ∀ a, Yields root last (f a) fun c => Q a → R c) : Yields root last (x >>= f) R := by
  intro b c after hrun
  rw [run_bind] at hrun
  rcases hfirst : x.run b with ⟨err | a, mid⟩ <;> rw [hfirst] at hrun
  · cases congrArg Prod.fst hrun
  · obtain ⟨hmid, hq⟩ := hx b a mid hfirst
    obtain ⟨hafter, hr⟩ := hf a mid c after hrun
    refine ⟨hmid.trans hafter, fun hroot hlast => ?_⟩
    exact hr (hroot.trans hmid) hlast (hq hroot (hafter.trans hlast))

theorem Yields.map {g : α → β} (hx : Yields root last x Q) (hg : ∀ a, Q a → R (g a)) :
    Yields root last (x >>= fun a => Pure.pure (g a)) R :=
  hx.bind fun a => .pure (hg a)

theorem Yields.mono {Q' : α → Prop} (hx : Yields root last x Q) (hq : ∀ a, Q a → Q' a) :
    Yields root last x Q' :=
  fun b a after hrun => (hx b a after hrun).imp_right fun h hroot hlast => hq a (h hroot hlast)

theorem Yields.get {f : Bridge → Action α}
    (hf : ∀ c, Yields root last (f c) fun a => root.WrapsTo c → c.WrapsTo last → Q a) :
    Yields root last (MonadState.get >>= f) Q := by
  intro b a after hrun
  obtain ⟨hafter, hq⟩ := hf b b a after hrun
  exact ⟨hafter, fun hroot hlast => hq hroot hlast hroot (hafter.trans hlast)⟩

theorem Yields.within (hx : Yields root last x Q) (depth : Nat) :
    Yields root last (Action.within depth x) Q := by
  intro b a after hrun
  rw [run_within] at hrun
  split at hrun
  · cases congrArg Prod.fst hrun
  · exact hx b a after hrun

theorem Yields.wrap (o : InstanceHandle) : Yields root last (Action.step (·.wrap o)) fun w =>
    ∃ c : Bridge, root.WrapsTo c ∧ (c.wrap o).2.WrapsTo last ∧ w = (c.wrap o).1 := by
  intro b w after hrun
  obtain ⟨hw, rfl⟩ := Prod.mk.inj hrun
  obtain rfl := Except.ok.inj hw
  exact ⟨b.wrapsTo_wrap o, fun hroot hlast => ⟨b, hroot, hlast, rfl⟩⟩

end Action

/-! ## Values -/

namespace Native.Value

/-- The script value stands for the native one, where instances and weak handles are seen as on a
bridge between two. -/
inductive Renders (root last : Bridge) : Value → Script.Value → Prop where
  | undefined : Renders root last .undefined .undefined
  | null : Renders root last .null .null
  | bool (x : Bool) : Renders root last (.bool x) (.bool x)
  | integer (i : Int64) : Renders root last (.integer i) (.int i)
  | number (x : Binary64) : Renders root last (.number x) (.float x)
  | string (s : String) : Renders root last (.string s) (.text s)
  | u16string (s : Utf16) : Renders root last (.u16string s) (.string s)
  | symbol (s : Symbol) : Renders root last (.symbol s) (.symbol s)
  | function (id : ObjectId) : Renders root last (.function id) (.function id)
  | script (v : Script.Value) : Renders root last (.script v) v
  | object {o : InstanceHandle} {c : Bridge} :
    root.WrapsTo c → (c.wrap o).2.WrapsTo last →
      Renders root last (.object o) (.wrapper (c.wrap o).1)
  | weakFunction {h : WeakHandle} {c : Bridge} :
    root.WrapsTo c → c.WrapsTo last →
      Renders root last (.weakFunction h) ((c.resolve h).getD .undefined)
  | variant {index : Nat} {n : Value} {v : Script.Value} :
    Renders root last n v → Renders root last (.variant index n) v
  | tuple {ns : List Value} {vs : List Script.Value} :
    List.Forall₂ (Renders root last) ns vs → Renders root last (.tuple ns) (.array vs)
  | list {ns : List Value} {vs : List Script.Value} :
    List.Forall₂ (Renders root last) ns vs → Renders root last (.list ns) (.array vs)
  | set {ns : List Value} {ws vs : List Script.Value} :
    List.Forall₂ (Renders root last) ns ws → Condenses ws vs →
      Renders root last (.set ns) (.array vs)
  | map {ps : List (Value × Value)} {fs es : List (Utf16 × Script.Value)} :
    List.Forall₂ (fun p f => p.1.propertyName? = some f.1) ps fs →
      List.Forall₂ (fun p f => Renders root last p.2 f.2) ps fs → Merges fs es →
      Renders root last (.map ps) (.map es)

open ScriptBridge.Action (Yields)
open ScriptBridge.Script.Value (fresh)

variable {root last : Bridge}

theorem append_fresh_addDistinct (converted : List Script.Value) (w : Script.Value)
    (ws : List Script.Value) :
    addDistinct converted w ++ fresh (addDistinct converted w) ws =
      converted ++ fresh converted (w :: ws) := by
  rw [addDistinct, fresh]
  split
  · rfl
  · rw [List.append_assoc, List.singleton_append]

mutual

theorem yields_toScriptAt (depth : Nat) :
    ∀ n : Value, Yields root last (n.toScriptAt depth) (Renders root last n)
  | .undefined => .within (.pure .undefined) depth
  | .null => .within (.pure .null) depth
  | .bool x => .within (.pure (.bool x)) depth
  | .integer i => .within (.pure (.integer i)) depth
  | .number x => .within (.pure (.number x)) depth
  | .string s => .within (.pure (.string s)) depth
  | .u16string s => .within (.pure (.u16string s)) depth
  | .symbol s => .within (.pure (.symbol s)) depth
  | .function id => .within (.pure (.function id)) depth
  | .script v => .within (.pure (.script v)) depth
  | .object o => by
    refine .within (.map (.wrap o) ?_) depth
    rintro _ ⟨c, hroot, hlast, rfl⟩
    exact .object hroot hlast
  | .weakFunction h => .within (.get fun _ => .pure .weakFunction) depth
  | .variant _ n => .within (.mono (yields_toScriptAt depth n) fun _ => .variant) depth
  | .tuple ns => .within (.map (yields_itemsToScript (depth + 1) ns) fun _ => .tuple) depth
  | .list ns => .within (.map (yields_itemsToScript (depth + 1) ns) fun _ => .list) depth
  | .set ns => by
    refine .within (.map (yields_elementsToScript (depth + 1) [] ns) ?_) depth
    rintro _ ⟨ws, hws, rfl⟩
    exact .set hws (condenses_fresh ws)
  | .map ps => by
    refine .within (.map (yields_entriesToScript (depth + 1) [] ps) ?_) depth
    rintro _ ⟨fs, hnames, hfs, rfl⟩
    exact .map hnames hfs (merges_setEntries fs)

theorem yields_itemsToScript (depth : Nat) : ∀ ns : List Value,
    Yields root last (itemsToScript depth ns) (List.Forall₂ (Renders root last) ns)
  | [] => .pure .nil
  | n :: rest =>
    .bind (yields_toScriptAt depth n) fun _ =>
      .map (yields_itemsToScript depth rest) fun _ hrest hn => .cons hn hrest

theorem yields_elementsToScript (depth : Nat) (converted : List Script.Value) :
    ∀ ns : List Value, Yields root last (elementsToScript depth converted ns) fun vs =>
      ∃ ws, List.Forall₂ (Renders root last) ns ws ∧ vs = converted ++ fresh converted ws
  | [] => .pure ⟨[], .nil, (List.append_nil converted).symm⟩
  | n :: rest => by
    refine .bind (yields_toScriptAt depth n) fun w =>
      .mono (yields_elementsToScript depth (addDistinct converted w) rest) ?_
    rintro _ ⟨ws, hws, rfl⟩ hw
    exact ⟨w :: ws, .cons hw hws, append_fresh_addDistinct converted w ws⟩

theorem yields_entriesToScript (depth : Nat) (converted : List (Utf16 × Script.Value)) :
    ∀ ps : List (Value × Value), Yields root last (entriesToScript depth converted ps) fun es =>
      ∃ fs, List.Forall₂ (fun p f => p.1.propertyName? = some f.1) ps fs ∧
        List.Forall₂ (fun p f => Renders root last p.2 f.2) ps fs ∧ es = setEntries converted fs
  | [] => .pure ⟨[], .nil, .nil, rfl⟩
  | (key, n) :: rest => by
    unfold entriesToScript
    cases hname : key.propertyName? with
    | none => exact .throw _
    | some name =>
      refine .bind (yields_toScriptAt depth n) fun v =>
        .mono (yields_entriesToScript depth (setEntry name v converted) rest) ?_
      rintro _ ⟨fs, hnames, hfs, rfl⟩ hv
      exact ⟨(name, v) :: fs, .cons hname hnames, .cons hv hfs, rfl⟩

end

/-! ## Names -/

theorem leaves_subset_of_mem_contents {n m : Value} (h : m ∈ n.contents) :
    m.leaves ⊆ n.leaves := by
  have hitems : ∀ items : List Value, m ∈ items → m.leaves ⊆ leavesOfItems items := by
    intro items hm
    induction items with
    | nil => cases hm
    | cons item rest ih =>
      rcases List.mem_cons.1 hm with rfl | hm
      · exact List.subset_append_left _ _
      · exact List.Subset.trans (ih hm) (List.subset_append_right _ _)
  have hentries : ∀ ps : List (Value × Value), m ∈ ps.map (·.2) → m.leaves ⊆ leavesOfEntries ps := by
    intro ps hm
    induction ps with
    | nil => cases hm
    | cons p rest ih =>
      rcases List.mem_cons.1 hm with rfl | hm
      · exact List.subset_append_left _ _
      · exact List.Subset.trans (ih hm) (List.subset_append_right _ _)
  cases n with
  | tuple items | list items | set items => exact hitems items h
  | map ps => exact hentries ps h
  | _ => cases h

end Native.Value

namespace Script.Value

variable {vs : List Value} {es : List (Utf16 × Value)}

/-- No map in the value, itself included, has two entries of one name. -/
def NamesApart (v : Value) : Prop := ∀ es, .map es ∈ v.parts → (es.map (·.1)).Nodup

theorem NamesApart.array (h : ∀ v ∈ vs, v.NamesApart) : (Value.array vs).NamesApart := by
  intro es hes
  rcases mem_parts_array.1 hes with heq | ⟨v, hv, hes⟩
  · cases heq
  · exact h v hv es hes

theorem NamesApart.map (hnames : (es.map (·.1)).Nodup) (h : ∀ e ∈ es, e.2.NamesApart) :
    (Value.map es).NamesApart := by
  intro es' hes'
  rcases mem_parts_map.1 hes' with heq | ⟨e, he, hes'⟩
  · cases heq
    exact hnames
  · exact h e he es' hes'

end Script.Value

namespace Native.Value

variable {root last : Bridge} {n : Value} {v : Script.Value}

/-- Only a value that is passed through can bring in a map with a name twice. -/
theorem Renders.namesApart (h : n.Renders root last v) (hplain : ∀ w, .script w ∉ n.leaves) :
    v.NamesApart := by
  induction n using inductionOn generalizing v with
  | variant index n ih =>
    cases h with
    | variant h => exact ih h hplain
  | other n hvariant ih =>
    have hinside : ∀ m ∈ n.contents, ∀ w, m.Renders root last w → w.NamesApart :=
      fun m hm w hw => ih m hm hw fun s hs => hplain s (leaves_subset_of_mem_contents hm hs)
    cases h with
    | tuple hvs | list hvs =>
      refine .array fun w hw => ?_
      obtain ⟨m, hm, hrenders⟩ := exists_of_mem_right hvs hw
      exact hinside m hm w hrenders
    | set hws hcondenses =>
      refine .array fun w hw => ?_
      obtain ⟨m, hm, hrenders⟩ := exists_of_mem_right hws (hcondenses.sublist.subset hw)
      exact hinside m hm w hrenders
    | map hnames hfs hmerges =>
      refine .map hmerges.nodup fun e he => ?_
      obtain ⟨before, after, rfl, -⟩ := hmerges.last e he
      obtain ⟨p, hp, hrenders⟩ :=
        exists_of_mem_right hfs (List.mem_append_right before List.mem_cons_self)
      exact hinside p.2 (List.mem_map_of_mem hp) e.2 hrenders
    | script w => exact absurd (List.mem_singleton_self _) (hplain v)
    | variant => exact absurd rfl (hvariant _ _)
    | @weakFunction handle c =>
      intro es hes
      obtain ⟨kind, id⟩ := handle
      unfold Bridge.resolve at hes
      split at hes
      · cases kind <;> exact nomatch List.mem_singleton.1 hes
      · exact nomatch List.mem_singleton.1 hes
    | _ => exact fun es hes => nomatch List.mem_singleton.1 hes

end Native.Value

namespace Bridge

theorem renders_of_toScript {b after : Bridge} {n : Native.Value} {v : Script.Value}
    (h : b.toScript n = (.ok v, after)) : n.Renders b after v := by
  have hyields : Action.Yields b after (n.toScriptAt 0) (n.Renders b after) := n.yields_toScriptAt 0
  exact (hyields b v after h).2 (.refl b) (.refl after)

/-- **What a conversion to script makes of a value.** A tuple and a list keep all their items in
order; a set keeps the elements that equal none before; a map keeps the first place of every name
and the value that has it last. Unless values are passed through, no map in the outcome has a name
twice. -/
theorem toScript_renders {b after : Bridge} {n : Native.Value} {v : Script.Value}
    (h : b.toScript n = (.ok v, after)) (hplain : ∀ w, .script w ∉ n.leaves) :
    n.Renders b after v ∧ v.NamesApart :=
  ⟨renders_of_toScript h, (renders_of_toScript h).namesApart hplain⟩

/-- A map that has the name `a` twice, and in it a set whose elements repeat one another. -/
def repetitive : Native.Value :=
  .map [(.string "a", .null),
    (.variant 0 (.integer 7), .set [.integer 1, .bool true, .variant 3 (.integer 1)]),
    (.u16string (.ofString "a"), .tuple [.bool false, .bool false])]

theorem toScript_renders_repetitive :
    let v : Script.Value := .map [(.ofString "a", .array [.bool false, .bool false]),
      (.ofString "7", .array [.int 1, .bool true])]
    repetitive.Renders {} {} v ∧ v.NamesApart := by
  intro v
  refine toScript_renders (b := {}) (by rfl) fun w hw => ?_
  simp [repetitive, Native.Value.leaves, Native.Value.leavesOfEntries,
    Native.Value.leavesOfItems] at hw

/-- A NaN stays in its set and equals nothing there, not even itself. -/
theorem toScript_set_nan :
    let nan : Binary64 := .ofFields false 2047 1
    let n : Native.Value := .set [.number nan]
    ({} : Bridge).Reachable ∧ (∀ w, .script w ∉ n.leaves) ∧
      ({} : Bridge).toScript (.number nan) = (.ok (.float nan), {}) ∧
      ({} : Bridge).toScript n = (.ok (.array [.float nan]), {}) ∧
      ∀ v ∈ [Script.Value.float nan], v.same (.float nan) = false := by
  refine ⟨⟨{}, .refl⟩, fun w hw => ?_, rfl, rfl, by decide⟩
  cases List.mem_singleton.1 hw

end Bridge
end ScriptBridge
