import ScriptBridge.Proofs.Conversion.Failures
import ScriptBridge.Proofs.Conversion.Keys
import ScriptBridge.Proofs.Conversion.Rendering
import ScriptBridge.Proofs.Matchings

/-! # Names on the way to native and back

Whatever was converted from script can be converted back (`Bridge.obstacles_of_fromScriptAt`), and the
entries of a map come back in order. Their names come back as the keys print that they were read as.
For a key that was read as a number this need not be the name it was read from, and where two keys
print alike, one entry takes the place of the other: `Bridge.map_names_return`.
-/

namespace ScriptBridge
set_option autoImplicit false

namespace Native.Value

variable {limit depth : Nat} {n : Value}

/-! ## Free of obstacles -/

theorem tooDeep_eq_nil (h : depth ≤ limit) : tooDeep limit depth = [] := if_neg (Nat.not_lt.2 h)

theorem obstaclesOfItems_eq_nil {items : List Value}
    (h : ∀ m ∈ items, m.obstacles limit depth = []) : obstaclesOfItems limit depth items = [] := by
  refine List.eq_nil_iff_forall_not_mem.2 fun err herr => ?_
  obtain ⟨m, hm, herr⟩ := mem_obstaclesOfItems_iff.1 herr
  rw [h m hm] at herr
  cases herr

theorem obstaclesOfEntries_eq_nil {entries : List (Value × Value)}
    (hkeys : ∀ p ∈ entries, ∃ name, p.1.propertyName? = some name)
    (h : ∀ p ∈ entries, p.2.obstacles limit depth = []) :
    obstaclesOfEntries limit depth entries = [] := by
  refine List.eq_nil_iff_forall_not_mem.2 fun err herr => ?_
  rcases mem_obstaclesOfEntries_iff.1 herr with ⟨p, hp, herr⟩ | ⟨p, hp, herr⟩
  · obtain ⟨name, hname⟩ := hkeys p hp
    cases hname.symm.trans (mem_nameless_iff.1 herr).1
  · rw [h p hp] at herr
    cases herr

/-- What meets no obstacle one layer further down meets none here. -/
theorem obstacles_eq_nil_of_deeper (h : n.obstacles limit (depth + 1) = []) :
    n.obstacles limit depth = [] := by
  refine List.eq_nil_iff_forall_not_mem.2 fun err herr => ?_
  have hdeeper := (mem_obstacles_iff.1 herr).mono (Nat.le_succ depth)
  rw [← mem_obstacles_iff, h] at hdeeper
  cases hdeeper

theorem obstacles_items {items : List Value} (hdepth : depth ≤ limit)
    (h : ∀ m ∈ items, m.obstacles limit (depth + 1) = []) :
    tooDeep limit depth ++ obstaclesOfItems limit (depth + 1) items = [] := by
  rw [tooDeep_eq_nil hdepth, obstaclesOfItems_eq_nil h, List.append_nil]

end Native.Value

namespace Bridge

open Native.Value (tooDeep_eq_nil obstacles_items obstaclesOfEntries_eq_nil)

variable {b : Bridge} {index depth : Nat} {v : Script.Value} {n : Native.Value}

/-- **What was converted from script meets no obstacle on its way back**, by induction on the type.
On the way from script, a variant counts as a layer, and on the way back it does not. -/
theorem obstacles_of_fromScriptAt (t : DeclaredType)
    (hn : b.fromScriptAt index t depth v = .ok n) : n.obstacles b.options.maxDepth depth = [] := by
  induction t using DeclaredType.layersOn generalizing depth v n with
  | scalar t ht =>
    obtain ⟨hdepth, hreads⟩ := reads_of_fromScriptAt ht hn
    cases hreads <;> exact tooDeep_eq_nil hdepth
  | tuple types ih =>
    obtain ⟨hdepth, items, ns, rfl, hlen, hns, rfl⟩ := fromScriptAt_tuple_iff.1 hn
    have hfree : List.Forall₂ (fun _ n => n.obstacles b.options.maxDepth (depth + 1) = []) items ns :=
      forall₂_of_componentsFromScript hlen hns fun k t item n ht _ hn =>
        ih t (List.mem_of_getElem? ht) hn
    refine obstacles_items hdepth fun m hm => ?_
    obtain ⟨_, -, h⟩ := exists_of_mem_right hfree hm
    exact h
  | variant types ih =>
    obtain ⟨hdepth, k, t, n', rfl, ht, hn'⟩ := fromScriptAt_variant hn
    have hfree := Native.Value.obstacles_eq_nil_of_deeper (ih t (List.mem_of_getElem? ht) hn')
    exact List.append_eq_nil_iff.2 ⟨tooDeep_eq_nil hdepth, hfree⟩
  | list element ih =>
    obtain ⟨hdepth, items, ns, rfl, hns, rfl⟩ := fromScriptAt_list_iff.1 hn
    refine obstacles_items hdepth fun m hm => ?_
    obtain ⟨item, -, hm⟩ := exists_of_mem_right hns hm
    exact ih hm
  | set element ih =>
    obtain ⟨hdepth, items, ns, rfl, hns, rfl⟩ := fromScriptAt_set_iff_fresh.1 hn
    refine obstacles_items hdepth fun m hm => ?_
    obtain ⟨item, -, hm⟩ := exists_of_mem_right hns hm
    exact ih hm
  | map key value ih =>
    obtain ⟨hdepth, es, ps, rfl, hps, rfl⟩ := fromScriptAt_map_iff.1 hn
    refine List.append_eq_nil_iff.2 ⟨tooDeep_eq_nil hdepth, obstaclesOfEntries_eq_nil ?_ ?_⟩
    · intro p hp
      obtain ⟨e, -, hkey, -⟩ := exists_of_mem_right hps hp
      exact DeclaredType.exists_propertyName?_of_readKey? key hkey
    · intro p hp
      obtain ⟨e, -, -, hn⟩ := exists_of_mem_right hps hp
      exact ih hn
  | optional inner ih =>
    obtain ⟨hdepth, ⟨-, rfl⟩ | ⟨-, rfl⟩ | ⟨-, hn⟩⟩ := fromScriptAt_optional_iff.1 hn
    · exact tooDeep_eq_nil hdepth
    · exact tooDeep_eq_nil hdepth
    · exact ih hn

end Bridge

/-! ## Names -/

namespace DeclaredType

variable {key : DeclaredType}

/-- A name that is read as a number is how that number prints. -/
def Prints (key : DeclaredType) (name : Utf16) : Prop :=
  ∀ k x, key.readKey? name = some k → k.inner = .number x → name = .ofString x.display

theorem rename?_eq_self_iff_prints {name name' : Utf16} (h : key.rename? name = some name') :
    name' = name ↔ key.Prints name := by
  obtain ⟨k, hk, -⟩ := Option.bind_eq_some_iff.1 h
  rw [← Option.some_inj, ← h, rename?_eq_self_iff hk]
  constructor
  · intro hprinted k' x hk' hx
    obtain rfl := Option.some.inj (hk.symm.trans hk')
    exact hprinted x hx
  · exact fun hprints x hx => hprints k x hk hx

theorem eq_names_iff_prints {es : List (Utf16 × Script.Value)} {names : List Utf16}
    (h : List.Forall₂ (fun e name => key.rename? e.1 = some name) es names) :
    names = es.map (·.1) ↔ ∀ e ∈ es, key.Prints e.1 := by
  induction h with
  | nil => simp
  | @cons e name es names hname _ ih =>
    rw [List.map_cons, List.cons.injEq, List.forall_mem_cons, ih, rename?_eq_self_iff_prints hname]

end DeclaredType

namespace Bridge

variable {b : Bridge} {key value : DeclaredType} {es : List (Utf16 × Script.Value)}
  {n : Native.Value} {index : Nat}

/-- A map that was converted from script is converted back entry by entry, until the entries are
merged. -/
theorem exists_entries_of_fromScript
    (h : b.fromScript (.map es) (.map key value) index = .ok n) :
    ∃ ps fs es' after, n = .map ps ∧ b.toScript n = (.ok (.map es'), after) ∧
      List.Forall₂ (fun e name => key.rename? e.1 = some name) es (fs.map (·.1)) ∧
      List.Forall₂ (fun p f => p.1.propertyName? = some f.1 ∧ p.2.Renders b after f.2) ps fs ∧
      Merges fs es' := by
  obtain ⟨v, hv⟩ := exists_toScript_iff_obstacles.2 (obstacles_of_fromScriptAt _ h)
  have hrun : b.toScript n = (.ok v, (b.toScript n).2) := Prod.ext hv rfl
  obtain ⟨-, es₀, ps, heq, hps, rfl⟩ := fromScriptAt_map_iff.1 h
  cases heq
  cases renders_of_toScript hrun with
  | @map _ fs es' hnames hfs hmerges =>
    refine ⟨ps, fs, es', _, rfl, hrun, ?_, forall₂_and hnames hfs, hmerges⟩
    rw [List.forall₂_map_right_iff]
    refine forall₂_trans hps hnames fun e _ p f _ hread hname => ?_
    rw [DeclaredType.rename?, hread.1, Option.bind_some, hname]

/-- **The names of a map come back.** A map that was converted from script is converted back to the
names that its keys print as, each once and in order. If no two keys print alike, it has all its
entries; these are exactly the names that it had if each name that was read as a number is how that
number prints, as it is under every key type without numbers. -/
theorem map_names_return (hdistinct : (es.map (·.1)).Nodup)
    (h : b.fromScript (.map es) (.map key value) index = .ok n) :
    ∃ ps names es' after, n = .map ps ∧ b.toScript n = (.ok (.map es'), after) ∧
      List.Forall₂ (fun e name => key.rename? e.1 = some name) es names ∧
      es'.map (·.1) = names.eraseDups ∧
      (names.Nodup → List.Forall₂
        (fun p e' => p.1.propertyName? = some e'.1 ∧ p.2.Renders b after e'.2) ps es') ∧
      (es'.map (·.1) = es.map (·.1) ↔ ∀ e ∈ es, key.Prints e.1) ∧
      (.number ∉ key.parts → es'.map (·.1) = es.map (·.1)) := by
  obtain ⟨ps, fs, es', after, rfl, hrun, hrename, hfs, hmerges⟩ := exists_entries_of_fromScript h
  have hkept : es'.map (·.1) = es.map (·.1) ↔ fs.map (·.1) = es.map (·.1) := by
    rw [hmerges.names]
    constructor
    · intro heq
      have hlen : (fs.map (·.1)).eraseDups.length = (fs.map (·.1)).length := by
        rw [heq, List.length_map, hrename.length_eq]
      rw [← eraseDups_of_length hlen, heq]
    · intro heq
      rw [heq, eraseDups_of_nodup hdistinct]
  have hprints := hkept.trans (DeclaredType.eq_names_iff_prints hrename)
  refine ⟨ps, fs.map (·.1), es', after, rfl, hrun, hrename, hmerges.names, fun hnodup => ?_, hprints,
    fun hnumber => hprints.2 fun e he => ?_⟩
  · rw [hmerges.eq_of_nodup hnodup]
    exact hfs
  · obtain ⟨name, -, hname⟩ := exists_of_mem_right hrename.flip he
    exact (DeclaredType.rename?_eq_self_iff_prints hname).1
      (DeclaredType.eq_of_rename? hnumber hname)

/-- A key type that tries integers first, then numbers, then texts. -/
def printedKey : DeclaredType := .variant [.integer, .number, .string]

/-- Three names that are read as a number, an integer and a text. -/
def printedEntries : List (Utf16 × Script.Value) :=
  [(.ofString "0.5", .null), (.ofString "7", .bool true), (.ofString "x", .null)]

theorem map_names_return_printed :
    ∃ n es' after, ({} : Bridge).fromScript (.map printedEntries) (.map printedKey .any) 0 = .ok n ∧
      ({} : Bridge).toScript n = (.ok (.map es'), after) ∧
      es'.map (·.1) = [.ofString "0.5", .ofString "7", .ofString "x"] := by
  have hread : printedKey.readKey? (.ofString "0.5") =
      some (.variant 1 (.number (.ofRatio .double false 1 2))) := by rfl
  have hread' : printedKey.readKey? (.ofString "7") = some (.variant 0 (.integer 7)) := by rfl
  have hread'' : printedKey.readKey? (.ofString "x") = some (.variant 2 (.string "x")) := by rfl
  have hprints : ∀ e ∈ printedEntries, printedKey.Prints e.1 := by
    intro e he k x hk hx
    simp only [printedEntries, List.mem_cons, List.not_mem_nil, or_false] at he
    rcases he with rfl | rfl | rfl
    · obtain rfl := Option.some.inj (hread.symm.trans hk)
      obtain rfl := Native.Value.number.inj hx
      rfl
    · obtain rfl := Option.some.inj (hread'.symm.trans hk)
      cases hx
    · obtain rfl := Option.some.inj (hread''.symm.trans hk)
      cases hx
  have hn : ({} : Bridge).fromScript (.map printedEntries) (.map printedKey .any) 0 =
      .ok (.map [(.variant 1 (.number (.ofRatio .double false 1 2)), .script .null),
        (.variant 0 (.integer 7), .script (.bool true)), (.variant 2 (.string "x"), .script .null)]) := by
    rfl
  obtain ⟨ps, names, es', after, -, hrun, -, -, -, hnames, -⟩ := map_names_return (by decide) hn
  exact ⟨_, es', after, hn, hrun, hnames.2 hprints⟩

/-- Two names of one number: the second entry takes the place of the first. -/
theorem map_names_collapse :
    let es : List (Utf16 × Script.Value) := [(.ofString "1", .int 1), (.ofString "1.0", .int 2)]
    (es.map (·.1)).Nodup ∧ ∃ n, ({} : Bridge).fromScript (.map es) (.map .number .integer) 0 = .ok n ∧
      (({} : Bridge).toScript n).1 = .ok (.map [(.ofString "1", .int 2)]) := by
  refine ⟨by decide, .map [(.number (.ofInt 1), .integer 1), (.number (.ofInt 1), .integer 2)], ?_, ?_⟩
  · rfl
  · rfl

end Bridge
end ScriptBridge
