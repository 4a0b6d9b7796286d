import ScriptBridge.Proofs.Conversion.Reading

/-! # How a conversion from script fails

Whatever goes wrong inside an argument, the failure reports the index of the argument:
`Bridge.argumentIndex?_of_fromScript_error`. A value is only found to be nested too deep where the
type itself is nested deeper than the limit: `Bridge.fromScriptAt_ne_depth`.

* `FailsWith` says of a computation that its failures pass a test, and is told step by step.
* `Bridge.failsWith_fromScriptAt` goes through the types once, for any test that the failures of a
  conversion pass.
* `Bridge.fromScriptAt_variant_iff` tells which alternative of a variant takes a value, from those
  before it that refuse it.
-/

namespace ScriptBridge
set_option autoImplicit false

/-! ## Types, part by part -/

/-- A property of the types that holds of a type if it holds of what the type is built of. The type
of the keys of a map is not asked for. -/
@[elab_as_elim]
theorem DeclaredType.inductionOn {motive : DeclaredType → Prop} (t : DeclaredType)
    (any : motive .any) (null : motive .null) (bool : motive .bool) (integer : motive .integer)
    (bounded : ∀ name min max, motive (.bounded name min max)) (number : motive .number)
    (string : motive .string) (u16string : motive .u16string) (symbol : motive .symbol)
    (tuple : ∀ types, (∀ t ∈ types, motive t) → motive (.tuple types))
    (variant : ∀ alternatives, (∀ t ∈ alternatives, motive t) → motive (.variant alternatives))
    (list : ∀ element, motive element → motive (.list element))
    (map : ∀ key value, motive value → motive (.map key value))
    (set : ∀ element, motive element → motive (.set element))
    (optional : ∀ inner, motive inner → motive (.optional inner))
    (object : ∀ className, motive (.object className)) (function : motive .function) : motive t := by
  have hcons : ∀ (t : DeclaredType) (types : List DeclaredType), motive t →
      (∀ t ∈ types, motive t) → ∀ t' ∈ t :: types, motive t' :=
    fun t types ht htypes => List.forall_mem_cons.2 ⟨ht, htypes⟩
  exact @DeclaredType.rec motive (fun types => ∀ t ∈ types, motive t) any null bool integer bounded
    number string u16string symbol tuple variant list (fun key value _ => map key value) set optional
    object function (fun _ h => nomatch h) hcons t

/-- The same with one case for all types that are not built of others. -/
@[elab_as_elim]
theorem DeclaredType.layersOn {motive : DeclaredType → Prop} (t : DeclaredType)
    (scalar : ∀ t, t.isScalar → motive t)
    (tuple : ∀ types, (∀ t ∈ types, motive t) → motive (.tuple types))
    (variant : ∀ alternatives, (∀ t ∈ alternatives, motive t) → motive (.variant alternatives))
    (list : ∀ element, motive element → motive (.list element))
    (map : ∀ key value, motive value → motive (.map key value))
    (set : ∀ element, motive element → motive (.set element))
    (optional : ∀ inner, motive inner → motive (.optional inner)) : motive t := by
  induction t using DeclaredType.inductionOn with
  | tuple types ih => exact tuple types ih
  | variant alternatives ih => exact variant alternatives ih
  | list element ih => exact list element ih
  | map key value ih => exact map key value ih
  | set element ih => exact set element ih
  | optional inner ih => exact optional inner ih
  | _ => exact scalar _ rfl

namespace DeclaredType

variable {t key value element inner : DeclaredType} {types : List DeclaredType}

theorem nesting_tuple : (tuple types).nesting = nestingOfItems types + 1 := rfl

theorem nesting_variant : (variant types).nesting = nestingOfItems types + 1 := rfl

theorem nesting_list : (list element).nesting = element.nesting + 1 := rfl

theorem nesting_set : (set element).nesting = element.nesting + 1 := rfl

theorem nesting_map : (map key value).nesting = value.nesting + 1 := rfl

theorem nesting_optional : (optional inner).nesting = inner.nesting := rfl

theorem nestingOfItems_cons :
    nestingOfItems (t :: types) = max t.nesting (nestingOfItems types) := rfl

theorem nesting_le_of_mem (h : t ∈ types) : t.nesting ≤ nestingOfItems types := by
  induction types with
  | nil => cases h
  | cons t' rest ih =>
    rw [nestingOfItems_cons]
    rcases List.mem_cons.1 h with rfl | h
    · exact Nat.le_max_left _ _
    · exact Nat.le_trans (ih h) (Nat.le_max_right _ _)

end DeclaredType

/-! ## Computations that may fail -/

section
variable {ε α β : Type} {P : ε → Prop} {x : Except ε α}

/-- Whatever the computation fails with passes the test. -/
def FailsWith (P : ε → Prop) (x : Except ε α) : Prop := ∀ err, x = .error err → P err

theorem FailsWith.pure (a : α) : FailsWith P (Pure.pure a) := fun _ h => nomatch h

theorem FailsWith.throw {err : ε} (h : P err) : FailsWith P (throw err : Except ε α) := by
  rintro _ ⟨⟩
  exact h

theorem FailsWith.bind {f : α → Except ε β} (hx : FailsWith P x)
    (hf : ∀ a, FailsWith P (f a)) : FailsWith P (x >>= f) := by
  intro err h
  cases x with
  | error err' =>
    cases h
    exact hx err rfl
  | ok a => exact hf a err h

theorem FailsWith.mapM {f : α → Except ε β} {as : List α} (h : ∀ a ∈ as, FailsWith P (f a)) :
    FailsWith P (as.mapM f) := by
  induction as with
  | nil => exact .pure _
  | cons a rest ih =>
    obtain ⟨ha, hrest⟩ := List.forall_mem_cons.1 h
    rw [List.mapM_cons]
    exact .bind ha fun b => .bind (ih hrest) fun bs => .pure _

end

namespace Bridge

variable {b : Bridge} {index depth : Nat} {t : DeclaredType} {v : Script.Value}
  {P : BridgeError → Prop}

/-- A value under a type of this nesting, found at the depth, stays within the limit, or else that it
does not passes the test. -/
def Admits (b : Bridge) (P : BridgeError → Prop) (index depth nesting : Nat) : Prop :=
  depth + nesting ≤ b.options.maxDepth ∨ P (.depth index b.options.maxDepth)

theorem Admits.of_le {m n : Nat} (h : b.Admits P index depth n) (hle : m ≤ n) :
    b.Admits P index depth m :=
  h.imp_left fun hn => Nat.le_trans (Nat.add_le_add_left hle depth) hn

theorem Admits.below {n : Nat} (h : b.Admits P index depth (n + 1)) :
    b.Admits P index (depth + 1) n :=
  h.imp_left fun hn => by omega

theorem failsWith_within {x : Except BridgeError Native.Value} {n : Nat}
    (hdepth : b.Admits P index depth n) (h : FailsWith P x) :
    FailsWith P (b.within index depth x) := by
  unfold Bridge.within
  split
  next hlimit =>
    refine .throw (hdepth.resolve_left fun hn => ?_)
    omega
  · exact h

theorem failsWith_distinctItems {convert : Script.Value → Except BridgeError Native.Value}
    (h : ∀ v, FailsWith P (convert v)) (seen items : List Script.Value) :
    FailsWith P (Conversion.distinctItems convert seen items) := by
  induction items generalizing seen with
  | nil => exact .pure _
  | cons item rest ih =>
    unfold Conversion.distinctItems
    split
    · exact ih seen
    · exact .bind (h item) fun n => .bind (ih _) fun ns => .pure _

theorem failsWith_entries {convert : Script.Value → Except BridgeError Native.Value}
    (hlookup : ∀ name, P (.lookup index name)) (h : ∀ v, FailsWith P (convert v))
    (key : DeclaredType) (es : List (Utf16 × Script.Value)) :
    FailsWith P (Conversion.entries convert index key es) := by
  induction es with
  | nil => exact .pure _
  | cons e rest ih =>
    unfold Conversion.entries
    split
    · exact .throw (hlookup _)
    · exact .bind (h e.2) fun n => .bind ih fun ps => .pure _

theorem failsWith_componentsFromScript {types : List DeclaredType}
    (h : ∀ t ∈ types, ∀ v, FailsWith P (b.fromScriptAt index t depth v))
    (items : List Script.Value) :
    FailsWith P (b.componentsFromScript index types depth items) := by
  induction types generalizing items with
  | nil => exact .pure _
  | cons t types ih =>
    cases items with
    | nil => exact .pure _
    | cons item items =>
      obtain ⟨ht, htypes⟩ := List.forall_mem_cons.1 h
      exact .bind (ht item) fun n => .bind (ih htypes items) fun ns => .pure _

theorem failsWith_alternativeFromScript {types : List DeclaredType} {fail : BridgeError}
    (hfail : P fail) (h : ∀ t ∈ types, FailsWith P (b.fromScriptAt index t depth v))
    (number : Nat) : FailsWith P (b.alternativeFromScript index types number fail depth v) := by
  induction types generalizing number with
  | nil => exact .throw hfail
  | cons t types ih =>
    obtain ⟨ht, htypes⟩ := List.forall_mem_cons.1 h
    unfold alternativeFromScript
    split
    · exact .pure _
    next hdepth => exact .throw (ht _ hdepth)
    · exact ih htypes _

/-- **How conversions fail.** A test that the failures of argument `index` pass is passed by
whatever a conversion fails with; that a value is nested too deep has to pass it only if the type is
nested deeper than the limit. -/
theorem failsWith_fromScriptAt
    (hconversion : ∀ expected actual, P (.conversion index expected actual))
    (harity : ∀ expected actual, P (.arity index expected actual))
    (hlookup : ∀ name, P (.lookup index name)) (t : DeclaredType) {depth : Nat}
    (hdepth : b.Admits P index depth t.nesting) (v : Script.Value) :
    FailsWith P (b.fromScriptAt index t depth v) := by
  induction t using DeclaredType.inductionOn generalizing depth v with
  | any => exact failsWith_within hdepth (.pure _)
  | null | bool | integer | bounded | number | u16string | symbol | function =>
    refine failsWith_within hdepth ?_
    split
    · exact .pure _
    · exact .throw (hconversion _ _)
  | string =>
    refine failsWith_within hdepth ?_
    split
    · split
      · exact .pure _
      · exact .throw (hconversion _ _)
    · exact .throw (hconversion _ _)
  | object className =>
    refine failsWith_within hdepth ?_
    split
    · split
      · exact .pure _
      · exact .throw (hconversion _ _)
    · exact .throw (hconversion _ _)
  | tuple types ih =>
    have hbelow := Admits.below (n := DeclaredType.nestingOfItems types) hdepth
    refine failsWith_within hdepth ?_
    split
    next items =>
      split
      · refine .bind (failsWith_componentsFromScript (fun t ht v => ?_) items) fun _ => .pure _
        exact ih t ht (hbelow.of_le (DeclaredType.nesting_le_of_mem ht)) v
      · exact .throw (harity _ _)
    · exact .throw (hconversion _ _)
  | variant alternatives ih =>
    have hbelow := Admits.below (n := DeclaredType.nestingOfItems alternatives) hdepth
    refine failsWith_within hdepth (failsWith_alternativeFromScript (hconversion _ _) ?_ 0)
    exact fun t ht => ih t ht (hbelow.of_le (DeclaredType.nesting_le_of_mem ht)) v
  | list element ih =>
    refine failsWith_within hdepth ?_
    split
    · exact .bind (.mapM fun item _ => ih (Admits.below hdepth) item) fun _ => .pure _
    · exact .throw (hconversion _ _)
  | set element ih =>
    refine failsWith_within hdepth ?_
    split
    · exact .bind (failsWith_distinctItems (ih (Admits.below hdepth)) _ _) fun _ => .pure _
    · exact .throw (hconversion _ _)
  | map key value ih =>
    refine failsWith_within hdepth ?_
    split
    · exact .bind (failsWith_entries hlookup (ih (Admits.below hdepth)) key _) fun _ => .pure _
    · exact .throw (hconversion _ _)
  | optional inner ih =>
    refine failsWith_within hdepth ?_
    split
    · exact .pure _
    · exact .pure _
    · exact ih hdepth _

/-- **A failure reports the index of the argument.** -/
theorem argumentIndex?_of_fromScript_error {err : BridgeError}
    (h : b.fromScript v t index = .error err) : err.argumentIndex? = some index :=
  failsWith_fromScriptAt (P := fun err => err.argumentIndex? = some index) (fun _ _ => rfl)
    (fun _ _ => rfl) (fun _ => rfl) t (.inr rfl) v err h

/-- **A type that is not nested deeper than the limit keeps values within it.** -/
theorem fromScriptAt_ne_depth (h : depth + t.nesting ≤ b.options.maxDepth) (i limit : Nat) :
    b.fromScriptAt index t depth v ≠ .error (.depth i limit) := by
  intro herr
  have hpasses := failsWith_fromScriptAt (P := fun err => ∀ i limit, err ≠ .depth i limit)
    (fun _ _ _ _ => nofun) (fun _ _ _ _ => nofun) (fun _ _ _ => nofun) t (.inl h) v _ herr
  exact hpasses i limit rfl

/-! ## The alternative that takes a value -/

/-- The type does not take the value, and not because the value is nested too deep. -/
def Refuses (b : Bridge) (index : Nat) (t : DeclaredType) (depth : Nat) (v : Script.Value) : Prop :=
  ∃ err, b.fromScriptAt index t depth v = .error err ∧ ∀ i limit, err ≠ .depth i limit

theorem alternativeFromScript_of_refuses {alternatives : List DeclaredType}
    (h : b.Refuses index t depth v) (number : Nat) (fail : BridgeError) :
    b.alternativeFromScript index (t :: alternatives) number fail depth v =
      b.alternativeFromScript index alternatives (number + 1) fail depth v := by
  obtain ⟨err, herr, hdepth⟩ := h
  conv_lhs => unfold alternativeFromScript
  split
  next hn =>
    rw [herr] at hn
    cases hn
  next i limit hlimit =>
    rw [herr] at hlimit
    cases hlimit
    exact absurd rfl (hdepth i limit)
  · rfl

/-- **The first alternative that takes a value decides**, if none before it finds the value to be
nested too deep. -/
theorem alternativeFromScript_eq_ok_iff {alternatives : List DeclaredType} {number : Nat}
    {fail : BridgeError} {n : Native.Value} :
    b.alternativeFromScript index alternatives number fail depth v = .ok n ↔
      ∃ before t after n', alternatives = before ++ t :: after ∧
        n = .variant (number + before.length) n' ∧ b.fromScriptAt index t depth v = .ok n' ∧
        ∀ t' ∈ before, b.Refuses index t' depth v := by
  induction alternatives generalizing number with
  | nil =>
    refine ⟨fun h => (nomatch h), ?_⟩
    rintro ⟨before, t, after, n', heq, -⟩
    cases before <;> cases heq
  | cons t rest ih =>
    constructor
    · intro h
      by_cases hrefuses : b.Refuses index t depth v
      · rw [alternativeFromScript_of_refuses hrefuses] at h
        obtain ⟨before, t', after, n', rfl, rfl, hn', hbefore⟩ := ih.1 h
        refine ⟨t :: before, t', after, n', rfl, ?_, hn', ?_⟩
        · rw [List.length_cons, Nat.add_assoc, Nat.add_comm 1]
        · exact List.forall_mem_cons.2 ⟨hrefuses, hbefore⟩
      · unfold alternativeFromScript at h
        split at h
        next n' hn' =>
          rw [pure_eq_ok_iff] at h
          exact ⟨[], t, rest, n', rfl, h.symm, hn', fun _ hmem => nomatch hmem⟩
        · cases h
        next err hnot herr => exact absurd ⟨err, herr, hnot⟩ hrefuses
    · rintro ⟨before, t', after, n', heq, rfl, hn', hbefore⟩
      cases before with
      | nil =>
        cases heq
        unfold alternativeFromScript
        rw [hn']
        rfl
      | cons t₀ before =>
        cases heq
        obtain ⟨hrefuses, hbefore⟩ := List.forall_mem_cons.1 hbefore
        rw [alternativeFromScript_of_refuses hrefuses]
        refine ih.2 ⟨before, t', after, n', rfl, ?_, hn', hbefore⟩
        rw [List.length_cons, Nat.add_assoc, Nat.add_comm 1]

/-- When no alternative takes a value, all of them refuse it, if none finds it to be nested too deep.
-/
theorem refuses_of_alternativeFromScript_error {alternatives : List DeclaredType} {number : Nat}
    {fail err : BridgeError}
    (h : b.alternativeFromScript index alternatives number fail depth v = .error err) :
    (∃ i limit, err = .depth i limit) ∨ ∀ t ∈ alternatives, b.Refuses index t depth v := by
  induction alternatives generalizing number with
  | nil => exact .inr fun _ hmem => nomatch hmem
  | cons t rest ih =>
    by_cases hrefuses : b.Refuses index t depth v
    · rw [alternativeFromScript_of_refuses hrefuses] at h
      exact (ih h).imp_right fun hrest => List.forall_mem_cons.2 ⟨hrefuses, hrest⟩
    · unfold alternativeFromScript at h
      split at h
      · cases h
      next i limit _ =>
        cases h
        exact .inl ⟨i, limit, rfl⟩
      next err' hnot herr => exact absurd ⟨err', herr, hnot⟩ hrefuses

theorem fromScriptAt_variant_iff {alternatives : List DeclaredType} {n : Native.Value} :
    b.fromScriptAt index (.variant alternatives) depth v = .ok n ↔
      depth ≤ b.options.maxDepth ∧ ∃ before t after n', alternatives = before ++ t :: after ∧
        n = .variant before.length n' ∧ b.fromScriptAt index t (depth + 1) v = .ok n' ∧
        ∀ t' ∈ before, b.Refuses index t' (depth + 1) v := by
  refine within_eq_ok_iff.trans (and_congr_right fun _ => ?_)
  simp only [alternativeFromScript_eq_ok_iff, Nat.zero_add]

end Bridge
end ScriptBridge
