import IdlBindings.Proofs.Model.Aliases

/-!
# Types with bindings

Which types have bindings is said here by rules, without a word on how to find out: known names,
aliases of types with bindings, and wrappers around a name with bindings that does not stand for a
wrapper itself. Where every name has one meaning, resolution finds exactly the types of the least
relation with these rules, also where aliases form cycles: a cycle has no type to start from, and so
nothing on it is in the relation.

## Main definitions

* `Model.LeadsToWrapper`: the types that stand for a wrapper
* `Model.Convertible`: the least relation
* `Model.FullExpansion`: a type with every alias in it replaced
-/
namespace IdlBindings

/-- The name of a wrapper. -/
def Wrapper.name : Wrapper → String
  | promise => "Promise"
  | sequence => "sequence"
  | frozenArray => "FrozenArray"

theorem Wrapper.ofName?_eq_some_iff {name : String} {w : Wrapper} :
    ofName? name = some w ↔ w.name = name := by
  constructor
  · intro h
    unfold ofName? at h
    split at h
    · next hp => cases h; exact hp.symm
    · split at h
      · next hs => cases h; exact hs.symm
      · split at h
        · next hf => cases h; exact hf.symm
        · cases h
  · rintro rfl
    cases w <;> decide

/-- How many wrappers a type has around one another. -/
def IdlType.wrappers : IdlType → Nat
  | named _ => 0
  | generic _ inner => inner.wrappers + 1

namespace Model

/-- Aliases lead from the type to a wrapper. -/
def LeadsToWrapper (m : Model) (x : IdlType) : Prop :=
  ∃ ns e, Chain m x ns e ∧ 0 < e.wrappers

/-- The least relation of types with bindings. -/
inductive Convertible (m : Model) : IdlType → Prop
  | scalar {s : Scalar} (hs : s ∈ Scalar.all) : Convertible m (.named s.name)
  | enumeration {e : Enumeration} (he : e ∈ m.enums) : Convertible m (.named e.name)
  | dictionary {d : Dictionary} (hd : d ∈ m.dictionaries) : Convertible m (.named d.name)
  | interface {i : Interface} (hi : i ∈ m.interfaces) : Convertible m (.named i.name)
  | typedef {t : Typedef} (ht : t ∈ m.typedefs) (htarget : Convertible m t.target) :
      Convertible m (.named t.name)
  | generic {w : Wrapper} {n : String} (hn : Convertible m (.named n))
      (hplain : ¬m.LeadsToWrapper (.named n))
      (hvalue : n = "undefined" ∨ n = "void" → w = .promise) :
      Convertible m (.generic w.name (.named n))

/-- Every alias in a type is replaced by what it stands for, inside wrappers too. -/
inductive FullExpansion (m : Model) : IdlType → IdlType → Prop
  | name {n : String} (hnone : m.typedef? n = none) : FullExpansion m (.named n) (.named n)
  | link {n : String} {t : Typedef} {e : IdlType} (hsome : m.typedef? n = some t)
      (hrest : FullExpansion m t.target e) : FullExpansion m (.named n) e
  | generic {wrapper : String} {inner e : IdlType} (hinner : FullExpansion m inner e) :
      FullExpansion m (.generic wrapper inner) (.generic wrapper e)

variable {m : Model} {n wrapper : String} {t : Typedef} {x e : IdlType} {ns : List String}

/-! ## Kinds of names -/

theorem isKnown_iff :
    m.IsKnown n ↔ (Scalar.find? n).isSome = true ∨ (m.enum? n).isSome = true ∨
      (m.dictionary? n).isSome = true ∨ (m.interface? n).isSome = true := by
  have hkeys : (∃ k, k ≠ .typedef ∧ n ∈ m.keys k) ↔
      n ∈ m.keys .enumeration ∨ n ∈ m.keys .dictionary ∨ n ∈ m.keys .interface := by
    constructor
    · rintro ⟨k, hk, hn⟩
      cases k with
      | typedef => exact absurd rfl hk
      | _ => simp [hn]
    · rintro (hn | hn | hn) <;> exact ⟨_, by decide, hn⟩
  rw [IsKnown, hkeys]
  simp [Scalar.find?, enum?, dictionary?, interface?, keys, List.find?_isSome]

/-- A name has a kind if it is known, or an alias that either names a scalar or is bound. -/
theorem nameKind?_isSome_iff {isBound : Typedef → Bool} :
    (m.nameKind? isBound n).isSome = true ↔
      m.IsKnown n ∨ ∃ t, m.typedef? n = some t ∧
        ((∃ s ∈ Scalar.all, t.target = .named s.name) ∨ isBound t = true) := by
  rw [isKnown_iff, nameKind?]
  rcases Scalar.find? n with _ | s
  swap
  · simp
  rcases m.enum? n with _ | e
  swap
  · simp
  rcases m.dictionary? n with _ | d
  swap
  · simp
  rcases m.interface? n with _ | i
  swap
  · simp
  -- All that is left is an alias.
  rcases m.typedef? n with _ | t
  · simp
  simp only [Option.isSome_none, Bool.false_eq_true, or_false, false_or, Option.some.injEq,
    exists_eq_left']
  cases t.target with
  | named target =>
      have hscalar : (Scalar.find? target).isSome = true ↔ ∃ s ∈ Scalar.all, target = s.name := by
        simp [Scalar.find?, List.find?_isSome, @eq_comm _ target]
      by_cases hbound : isBound t = true <;> simp [hbound, hscalar]
  | generic wrapper inner => by_cases hbound : isBound t = true <;> simp [hbound]

/-! ## Ends of chains -/

/-- A type that is no alias has bindings. -/
def IsBoundEnd (m : Model) : IdlType → Prop
  | .named n => m.IsKnown n
  | .generic wrapper (.named inner) => (m.genericKind? wrapper inner).isSome = true
  | .generic _ (.generic _ _) => False

/-- A name with bindings that is no alias, and no wrapper either. -/
def IsKnownEnd (m : Model) : IdlType → Prop
  | .named n => m.IsKnown n
  | .generic _ _ => False

/-- What is told by the end of the chain of an alias. -/
theorem exists_expand?_iff {P : IdlType → Prop} :
    (∃ e, m.expand? t = some e ∧ P e) ↔ ∃ ns e, Chain m t.target ns e ∧ P e := by
  simp only [expand?_eq_some_iff]
  constructor
  · rintro ⟨e, ⟨ns, hchain⟩, he⟩
    exact ⟨ns, e, hchain, he⟩
  · rintro ⟨ns, e, hchain, he⟩
    exact ⟨e, ⟨ns, hchain⟩, he⟩

/-- A name at the end of a chain has a kind exactly if it is known. -/
theorem endKind?_isSome_iff (he : m.expand? t = some (.named n)) :
    (m.endKind? n).isSome = true ↔ m.IsKnown n := by
  obtain ⟨ns, hchain⟩ := expand?_eq_some_iff.mp he
  simp [endKind?, nameKind?_isSome_iff, hchain.typedef?_eq_none]

theorem isBoundAlias_iff :
    m.isBoundAlias t = true ↔ ∃ ns e, Chain m t.target ns e ∧ m.IsBoundEnd e := by
  rw [← exists_expand?_iff, isBoundAlias]
  cases he : m.expand? t with
  | none => simp
  | some e =>
      match e with
      | .named n => simp [endKind?_isSome_iff he, IsBoundEnd]
      | .generic wrapper (.named inner) => simp [IsBoundEnd]
      | .generic wrapper (.generic _ _) => simp [IsBoundEnd]

theorem isPlainAlias_iff :
    m.isPlainAlias t = true ↔ ∃ ns e, Chain m t.target ns e ∧ m.IsKnownEnd e := by
  rw [← exists_expand?_iff, isPlainAlias]
  cases he : m.expand? t with
  | none => simp
  | some e =>
      match e with
      | .named n => simp [endKind?_isSome_iff he, IsKnownEnd]
      | .generic wrapper inner => simp [IsKnownEnd]

/-- A chain from an alias starts with that alias. -/
theorem chain_iff_of_typedef? (hsome : m.typedef? n = some t) {P : IdlType → Prop} :
    (∃ ns e, Chain m (.named n) ns e ∧ P e) ↔ ∃ ns e, Chain m t.target ns e ∧ P e := by
  constructor
  · rintro ⟨ns, e, hchain, he⟩
    cases hchain with
    | name hnone => simp [hsome] at hnone
    | link hsome' hrest =>
        obtain rfl : _ = _ := Option.some.inj (hsome.symm.trans hsome')
        exact ⟨_, _, hrest, he⟩
  · rintro ⟨ns, e, hchain, he⟩
    exact ⟨_, _, .link hsome hchain, he⟩

theorem chain_iff_of_typedef?_eq_none (hnone : m.typedef? n = none) {P : IdlType → Prop} :
    (∃ ns e, Chain m (.named n) ns e ∧ P e) ↔ P (.named n) := by
  constructor
  · rintro ⟨ns, e, hchain, he⟩
    cases hchain with
    | name => exact he
    | link hsome => simp [hnone] at hsome
  · intro he
    exact ⟨_, _, .name hnone, he⟩

/-- Where an alias is bound by the end of its chain, so is every name. -/
theorem WellNamed.nameKind?_isSome_iff (h : m.WellNamed) {isBound : Typedef → Bool}
    {P : IdlType → Prop} (hP : ∀ n, P (.named n) ↔ m.IsKnown n)
    (hbound : ∀ t, isBound t = true ↔ ∃ ns e, Chain m t.target ns e ∧ P e) :
    (m.nameKind? isBound n).isSome = true ↔ ∃ ns e, Chain m (.named n) ns e ∧ P e := by
  rw [Model.nameKind?_isSome_iff]
  cases ht : m.typedef? n with
  | none => simp [chain_iff_of_typedef?_eq_none ht, hP]
  | some t =>
      rw [chain_iff_of_typedef? ht, ← hbound]
      constructor
      · rintro (hknown | ⟨t', ht', ⟨s, hs, htarget⟩ | hbound'⟩)
        · simp [h.typedef?_of_isKnown hknown] at ht
        · -- An alias of a scalar has a chain of one step.
          obtain rfl := Option.some.inj ht'
          have hknown : m.IsKnown s.name := .inl ⟨s, hs, rfl⟩
          rw [hbound, htarget, chain_iff_of_typedef?_eq_none (h.typedef?_of_isKnown hknown), hP]
          exact hknown
        · obtain rfl := Option.some.inj ht'
          exact hbound'
      · intro hbound'
        exact .inr ⟨t, rfl, .inr hbound'⟩

/-- **A type has bindings exactly if the end of its chain has.** -/
theorem WellNamed.resolve?_isSome_iff (h : m.WellNamed) :
    (m.resolve? x).isSome = true ↔ ∃ ns e, Chain m x ns e ∧ m.IsBoundEnd e := by
  match x with
  | .named n =>
      rw [resolve?, Option.isSome_map]
      exact h.nameKind?_isSome_iff (fun _ => Iff.rfl) fun _ => isBoundAlias_iff
  | .generic wrapper inner =>
      have hchain : (∃ ns e, Chain m (.generic wrapper inner) ns e ∧ m.IsBoundEnd e) ↔
          m.IsBoundEnd (.generic wrapper inner) := by
        constructor
        · rintro ⟨ns, e, hchain, he⟩
          cases hchain
          exact he
        · intro he
          exact ⟨_, _, .generic wrapper inner, he⟩
      rw [hchain]
      cases inner with
      | named n => rfl
      | generic w i => simp [resolve?, IsBoundEnd]

/-! ## Wrapped names -/

/-- What a name of some kind is. Only scalars come before everything else. -/
def KindOf (m : Model) (n : String) : NameKind → Prop
  | .scalar s => s ∈ Scalar.all ∧ s.name = n
  | .enumeration e => Scalar.find? n = none ∧ e ∈ m.enums ∧ e.name = n
  | .dictionary d => Scalar.find? n = none ∧ d ∈ m.dictionaries ∧ d.name = n
  | .interface i => Scalar.find? n = none ∧ i ∈ m.interfaces ∧ i.name = n
  | .typedef t basic => Scalar.find? n = none ∧ t ∈ m.typedefs ∧ t.name = n ∧
      ∀ s, basic = some s → s ∈ Scalar.all ∧ t.target = .named s.name

theorem kindOf_of_nameKind? {isBound : Typedef → Bool} {kind : NameKind}
    (hkind : m.nameKind? isBound n = some kind) : m.KindOf n kind := by
  rw [nameKind?] at hkind
  cases hs : Scalar.find? n with
  | some s =>
      simp only [hs, Option.some.injEq] at hkind
      subst hkind
      exact ⟨Scalar.mem_all_of_find? hs, Scalar.name_of_find? hs⟩
  | none =>
      simp only [hs] at hkind
      split at hkind
      · next e he =>
          cases hkind
          exact ⟨hs, List.mem_of_find?_eq_some he, by simpa using List.find?_some he⟩
      · split at hkind
        · next d hd =>
            cases hkind
            exact ⟨hs, List.mem_of_find?_eq_some hd, by simpa using List.find?_some hd⟩
        · split at hkind
          · next i hi =>
              cases hkind
              exact ⟨hs, List.mem_of_find?_eq_some hi, by simpa using List.find?_some hi⟩
          · split at hkind
            · cases hkind
            · next t ht =>
                simp only [Option.ite_none_right_eq_some, Option.some.injEq] at hkind
                obtain ⟨_, rfl⟩ := hkind
                refine ⟨hs, mem_typedefs_of_typedef? ht, name_of_typedef? ht, fun s hbasic => ?_⟩
                split at hbasic
                · next target htarget =>
                    rw [htarget, Scalar.name_of_find? hbasic]
                    exact ⟨Scalar.mem_all_of_find? hbasic, rfl⟩
                · cases hbasic

/-- A name of some kind is known, or it is an alias. -/
theorem isKnown_or_typedef_of_kindOf {kind : NameKind} (hname : m.KindOf n kind) :
    m.IsKnown n ∨ ∃ t basic, kind = .typedef t basic ∧ t ∈ m.typedefs ∧ t.name = n := by
  cases kind with
  | scalar s => exact .inl (.inl ⟨s, hname⟩)
  | enumeration e =>
      obtain ⟨_, he, rfl⟩ := hname
      exact .inl (.inr ⟨.enumeration, by decide, List.mem_map_of_mem he⟩)
  | dictionary d =>
      obtain ⟨_, hd, rfl⟩ := hname
      exact .inl (.inr ⟨.dictionary, by decide, List.mem_map_of_mem hd⟩)
  | interface i =>
      obtain ⟨_, hi, rfl⟩ := hname
      exact .inl (.inr ⟨.interface, by decide, List.mem_map_of_mem hi⟩)
  | typedef t basic => exact .inr ⟨t, basic, rfl, hname.2.1, hname.2.2.1⟩

/-- The names of no value. -/
theorem family_eq_undefined_iff {s : Scalar} (hs : s ∈ Scalar.all) :
    s.family = .undefined ↔ s.name = "undefined" ∨ s.name = "void" := by
  have htable : ∀ s ∈ Scalar.all,
      s.family = .undefined ↔ s.name = "undefined" ∨ s.name = "void" := by decide
  exact htable s hs

theorem any_isGenericAlias_iff :
    (m.typedef? n).any m.isGenericAlias = true ↔ m.LeadsToWrapper (.named n) := by
  rw [LeadsToWrapper]
  cases ht : m.typedef? n with
  | none => simp [chain_iff_of_typedef?_eq_none ht, IdlType.wrappers]
  | some t =>
      rw [chain_iff_of_typedef? ht, Option.any_some, ← exists_expand?_iff, isGenericAlias]
      cases m.expand? t with
      | none => simp
      | some e => cases e <;> simp [IdlType.wrappers]

/-- A name that stands for no wrapper has bindings exactly if it has a kind with plain aliases. -/
theorem WellNamed.nameKind?_isPlainAlias_iff (h : m.WellNamed)
    (hplain : ¬m.LeadsToWrapper (.named n)) :
    (m.nameKind? m.isPlainAlias n).isSome = true ↔ (m.resolve? (.named n)).isSome = true := by
  rw [h.nameKind?_isSome_iff (fun _ => Iff.rfl) fun _ => isPlainAlias_iff, h.resolve?_isSome_iff]
  refine exists_congr fun ns => exists_congr fun e => and_congr_right fun hchain => ?_
  match e with
  | .named _ => rfl
  | .generic wrapper inner => exact absurd ⟨ns, _, hchain, Nat.succ_pos _⟩ hplain

/-- A wrapped name has bindings exactly if it is a name with bindings that stands for no wrapper
and, unless in a promise, is not a name of no value. -/
theorem WellNamed.genericKind?_isSome_iff (h : m.WellNamed) :
    (m.genericKind? wrapper n).isSome = true ↔
      ∃ w : Wrapper, w.name = wrapper ∧ (m.resolve? (.named n)).isSome = true ∧
        ¬m.LeadsToWrapper (.named n) ∧ (n = "undefined" ∨ n = "void" → w = .promise) := by
  simp only [← Wrapper.ofName?_eq_some_iff]
  rw [genericKind?]
  cases hw : Wrapper.ofName? wrapper with
  | none => simp
  | some w =>
      by_cases hgeneric : m.LeadsToWrapper (.named n)
      · simp [any_isGenericAlias_iff, hgeneric]
      · simp only [any_isGenericAlias_iff, hgeneric, ← h.nameKind?_isPlainAlias_iff hgeneric]
        cases hkind : m.nameKind? m.isPlainAlias n with
        | none => simp
        | some kind =>
            have hname := kindOf_of_nameKind? hkind
            have hvalue : ∀ {n}, Scalar.find? n = none → ¬(n = "undefined" ∨ n = "void") := by
              rintro n hn (rfl | rfl) <;> revert hn <;> decide
            cases kind with
            | scalar s =>
                obtain ⟨hs, rfl⟩ := hname
                rw [← family_eq_undefined_iff hs]
                by_cases hundef : s.family = .undefined ∧ w ≠ .promise
                · simp [hundef]
                · have hpromise : s.family = .undefined → w = .promise := by simpa using hundef
                  simpa [hundef] using hpromise
            | _ => simp [hvalue hname.1]

/-! ## The least relation -/

theorem convertible_of_isKnown (hn : m.IsKnown n) : m.Convertible (.named n) := by
  rcases hn with ⟨s, hs, rfl⟩ | ⟨k, hk, hn⟩
  · exact .scalar hs
  · cases k with
    | interface =>
        obtain ⟨i, hi, rfl⟩ := List.mem_map.mp hn
        exact .interface hi
    | dictionary =>
        obtain ⟨d, hd, rfl⟩ := List.mem_map.mp hn
        exact .dictionary hd
    | enumeration =>
        obtain ⟨e, he, rfl⟩ := List.mem_map.mp hn
        exact .enumeration he
    | typedef => exact absurd rfl hk

/-- The relation goes along chains. -/
theorem Chain.convertible (hchain : Chain m x ns e) (he : m.Convertible e) : m.Convertible x := by
  induction hchain with
  | generic => exact he
  | name => exact he
  | link hsome _ ih =>
      rw [← name_of_typedef? hsome]
      exact .typedef (mem_typedefs_of_typedef? hsome) (ih he)

/-- The end of a chain from a name that stands for no wrapper is a name. -/
theorem WellNamed.convertible_of_resolve?_named (h : m.WellNamed)
    (hn : (m.resolve? (.named n)).isSome = true) (hplain : ¬m.LeadsToWrapper (.named n)) :
    m.Convertible (.named n) := by
  obtain ⟨ns, e, hchain, he⟩ := h.resolve?_isSome_iff.mp hn
  match e with
  | .named _ => exact hchain.convertible (convertible_of_isKnown he)
  | .generic wrapper inner => exact absurd ⟨ns, _, hchain, Nat.succ_pos _⟩ hplain

theorem WellNamed.convertible_of_isBoundEnd (h : m.WellNamed) (he : m.IsBoundEnd e) :
    m.Convertible e := by
  match e with
  | .named _ => exact convertible_of_isKnown he
  | .generic wrapper (.named inner) =>
      obtain ⟨w, rfl, hn, hplain, hvalue⟩ := h.genericKind?_isSome_iff.mp he
      exact .generic (h.convertible_of_resolve?_named hn hplain) hplain hvalue

theorem WellNamed.resolve?_of_isKnown (h : m.WellNamed) (hn : m.IsKnown n) :
    (m.resolve? (.named n)).isSome = true :=
  h.resolve?_isSome_iff.mpr ⟨[], .named n, .name (h.typedef?_of_isKnown hn), hn⟩

theorem WellNamed.resolve?_of_convertible (h : m.WellNamed) (hx : m.Convertible x) :
    (m.resolve? x).isSome = true := by
  induction hx with
  | scalar hs => exact h.resolve?_of_isKnown (.inl ⟨_, hs, rfl⟩)
  | enumeration he =>
      exact h.resolve?_of_isKnown (.inr ⟨.enumeration, by decide, List.mem_map_of_mem he⟩)
  | dictionary hd =>
      exact h.resolve?_of_isKnown (.inr ⟨.dictionary, by decide, List.mem_map_of_mem hd⟩)
  | interface hi =>
      exact h.resolve?_of_isKnown (.inr ⟨.interface, by decide, List.mem_map_of_mem hi⟩)
  | typedef ht _ ih =>
      rw [h.resolve?_isSome_iff] at ih ⊢
      exact (chain_iff_of_typedef? (h.typedef?_of_mem ht)).mpr ih
  | generic _ hplain hvalue ih =>
      exact h.genericKind?_isSome_iff.mpr ⟨_, rfl, ih, hplain, hvalue⟩

theorem WellNamed.resolve?_isSome_iff_convertible (h : m.WellNamed) :
    (m.resolve? x).isSome = true ↔ m.Convertible x := by
  constructor
  · intro hx
    obtain ⟨ns, e, hchain, he⟩ := h.resolve?_isSome_iff.mp hx
    exact hchain.convertible (h.convertible_of_isBoundEnd he)
  · exact h.resolve?_of_convertible

/-! ## Full expansion -/

theorem FullExpansion.unique {e' : IdlType} (hx : FullExpansion m x e)
    (hx' : FullExpansion m x e') : e = e' := by
  induction hx generalizing e' with
  | name hnone =>
      cases hx' with
      | name => rfl
      | link hsome => simp [hnone] at hsome
  | link hsome _ ih =>
      cases hx' with
      | name hnone => simp [hnone] at hsome
      | link hsome' hrest' =>
          obtain rfl : _ = _ := Option.some.inj (hsome.symm.trans hsome')
          exact ih hrest'
  | generic _ ih =>
      cases hx' with
      | generic hinner' => rw [ih hinner']

/-- Over a chain, a type has the full expansion of its end. -/
theorem Chain.fullExpansion {e' : IdlType} (hchain : Chain m x ns e)
    (he : FullExpansion m e e') : FullExpansion m x e' := by
  induction hchain with
  | generic => exact he
  | name => exact he
  | link hsome _ ih => exact .link hsome (ih he)

/-- A name with bindings that stands for no wrapper expands to a name. -/
theorem WellNamed.fullExpansion_named (h : m.WellNamed)
    (hn : (m.resolve? (.named n)).isSome = true) (hplain : ¬m.LeadsToWrapper (.named n)) :
    ∃ n', FullExpansion m (.named n) (.named n') := by
  obtain ⟨ns, e, hchain, _⟩ := h.resolve?_isSome_iff.mp hn
  match e with
  | .named n' => exact ⟨n', hchain.fullExpansion (.name hchain.typedef?_eq_none)⟩
  | .generic wrapper inner => exact absurd ⟨ns, _, hchain, Nat.succ_pos _⟩ hplain

/-- A type with bindings has a full expansion, and that has at most one wrapper. -/
theorem WellNamed.exists_fullExpansion (h : m.WellNamed) (hx : (m.resolve? x).isSome = true) :
    ∃ e, FullExpansion m x e ∧ e.wrappers ≤ 1 := by
  obtain ⟨ns, e, hchain, he⟩ := h.resolve?_isSome_iff.mp hx
  match e with
  | .named n =>
      exact ⟨_, hchain.fullExpansion (.name hchain.typedef?_eq_none), Nat.zero_le _⟩
  | .generic wrapper (.named inner) =>
      obtain ⟨w, rfl, hn, hplain, _⟩ := h.genericKind?_isSome_iff.mp he
      obtain ⟨n', hn'⟩ := h.fullExpansion_named hn hplain
      exact ⟨_, hchain.fullExpansion (.generic hn'), Nat.le_refl _⟩

/-! ## What types resolve to -/

/-- An alias with bindings resolves to itself. -/
theorem WellNamed.resolve?_of_typedef? (h : m.WellNamed) (hsome : m.typedef? n = some t)
    (hn : (m.resolve? (.named n)).isSome = true) :
    ∃ basic, m.resolve? (.named n) = some (.name (.typedef t basic)) := by
  obtain ⟨kind, hkind⟩ := Option.isSome_iff_exists.mp (by simpa [resolve?] using hn)
  have hknown : ¬m.IsKnown n := fun hknown => by simp [h.typedef?_of_isKnown hknown] at hsome
  rcases isKnown_or_typedef_of_kindOf (kindOf_of_nameKind? hkind) with
    hknown' | ⟨t', basic, rfl, ht', rfl⟩
  · exact absurd hknown' hknown
  · obtain rfl := Option.some.inj (hsome.symm.trans (h.typedef?_of_mem ht'))
    exact ⟨basic, by simp [resolve?, hkind]⟩

/-- What a wrapped type resolves to is made of its wrapper and the kind of its inner name. -/
theorem nameKind?_of_genericKind? {kind : TypeKind} (hkind : m.genericKind? wrapper n = some kind) :
    ∃ w inner, kind = .generic w n inner ∧ m.nameKind? m.isPlainAlias n = some inner ∧
      w.name = wrapper := by
  simp only [genericKind?, Option.bind_eq_bind, Option.bind_eq_some_iff] at hkind
  obtain ⟨w, hw, hkind⟩ := hkind
  split at hkind
  · cases hkind
  · obtain ⟨inner, hinner, hkind⟩ := Option.bind_eq_some_iff.mp hkind
    refine ⟨w, inner, ?_, hinner, Wrapper.ofName?_eq_some_iff.mp hw⟩
    split at hkind
    · split at hkind
      · cases hkind
      · exact (Option.some.inj hkind).symm
    · exact (Option.some.inj hkind).symm

/-- Only a name resolves to the kind of a name. -/
theorem nameKind?_of_resolve? {kind : NameKind} (hx : m.resolve? x = some (.name kind)) :
    ∃ n, x = .named n ∧ m.nameKind? m.isBoundAlias n = some kind := by
  match x with
  | .named n => exact ⟨n, rfl, by simpa [resolve?] using hx⟩
  | .generic wrapper (.named inner) =>
      obtain ⟨w, kind', heq, _⟩ := nameKind?_of_genericKind? hx
      cases heq
  | .generic wrapper (.generic _ _) => simp [resolve?] at hx

/-- An alias has bindings exactly if its target has. -/
theorem WellNamed.resolve?_typedef_isSome_iff (h : m.WellNamed) (ht : t ∈ m.typedefs) :
    (m.resolve? (.named t.name)).isSome = true ↔ (m.resolve? t.target).isSome = true := by
  rw [h.resolve?_isSome_iff, h.resolve?_isSome_iff, chain_iff_of_typedef? (h.typedef?_of_mem ht)]

end Model
end IdlBindings
