import IdlBindings.Proofs.Model.Resolution

/-!
# Resolution without bounds

Resolution once more, as a recursion that may go on forever. A type is resolved through its name, a
name through the alias it belongs to, and an alias through the type at the end of its chain, which
is resolved in turn. Nothing bounds the depth. A chain is left as soon as an alias comes up that was
seen on it, and the type inside a wrapper is resolved only if it stands for no wrapper. So the
recursion comes to an end on every model and for every type, with the result of `resolve?`.

## Main definitions

* `Model.openExpand`: the end of a chain of aliases
* `Model.openResolve`, `Model.openNameKind`, `Model.openIsBoundAlias`: the kind of a type, the kind
  of a name, and whether an alias has bindings, by recursion through one another
* `Model.openCategory`: the kind of host value a type converts from
-/
namespace IdlBindings

namespace Model

/-! Each of these functions gives none if it runs forever. Inside, none stands for a type without
bindings, or for a chain of aliases that has no end. -/

/-- Follows aliases from a type until there is none, or until one comes up that was seen. -/
def openExpand (m : Model) (seen : List String) : IdlType → Option (Option IdlType)
  | .generic wrapper inner => return some (.generic wrapper inner)
  | .named n =>
    match m.typedef? n with
    | none => return some (.named n)
    | some t => if t.name ∈ seen then return none else m |>.openExpand (t.name :: seen) t.target
partial_fixpoint

/-- The alias stands for a wrapper. -/
def openIsGenericAlias (m : Model) (t : Typedef) : Option Bool := do
  match ← m.openExpand [t.name] t.target with
  | some (.generic _ _) => return true
  | _ => return false

/-- The type is a wrapper, or an alias of one. -/
def openIsNested (m : Model) : IdlType → Option Bool
  | .generic _ _ => return true
  | .named n =>
    match m.typedef? n with
    | none => return false
    | some t => m.openIsGenericAlias t

mutual

/-- The kind of a type. -/
def openResolve (m : Model) : IdlType → Option (Option TypeKind)
  | .named n => return (← m |>.openNameKind n).map .name
  | .generic wrapper inner =>
    match Wrapper.ofName? wrapper with
    | none => return none
    | some w => do
      if ← m.openIsNested inner then return none
      else
        match inner, ← m |>.openResolve inner with
        | .named n, some (.name (.scalar s)) =>
          if s.family = .undefined ∧ w ≠ .promise then return none
          else return some (.generic w n (.scalar s))
        | .named n, some (.name kind) => return some (.generic w n kind)
        | _, _ => return none
partial_fixpoint

/-- The kind of a name. -/
def openNameKind (m : Model) (n : String) : Option (Option NameKind) :=
  match Scalar.find? n with
  | some s => return some (.scalar s)
  | none =>
    match m.enum? n with
    | some e => return some (.enumeration e)
    | none =>
      match m.dictionary? n with
      | some d => return some (.dictionary d)
      | none =>
        match m.interface? n with
        | some i => return some (.interface i)
        | none =>
          match m.typedef? n with
          | none => return none
          | some t =>
            match t.target with
            | .named target =>
              match Scalar.find? target with
              | some s => return some (.typedef t (some s))
              | none => do
                if ← m |>.openIsBoundAlias t then return some (.typedef t none) else return none
            | .generic _ _ => do
              if ← m |>.openIsBoundAlias t then return some (.typedef t none) else return none
partial_fixpoint

/-- The alias stands for a type with bindings. -/
def openIsBoundAlias (m : Model) (t : Typedef) : Option Bool := do
  match ← m.openExpand [t.name] t.target with
  | none => return false
  | some e => return (← m |>.openResolve e).isSome
partial_fixpoint

end

/-- The kind of host value that a type converts from. -/
def openCategory (m : Model) (x : IdlType) : Option (Option ValueCategory) := do
  match ← m.openResolve x with
  | some (.name (.scalar s)) => return some s.category
  | some (.name (.enumeration _)) => return some .string
  | some (.name (.dictionary _)) => return some .object
  | some (.name (.interface _)) => return some .object
  | some (.name (.typedef t _)) => m |>.openCategory t.target
  | some (.generic .promise _ _) => return none
  | some (.generic _ _ _) => return some .object
  | none => return none
partial_fixpoint

variable {m : Model} {n wrapper : String} {t : Typedef} {x e : IdlType} {ns seen : List String}

/-! ## Following aliases -/

/-- From every name of a list, aliases lead to the type: what they lead to from the type is what
they lead to from the name, after more steps. -/
def ComesFrom (m : Model) (seen : List String) (x : IdlType) : Prop :=
  ∀ n ∈ seen, ∀ ns e, Chain m x ns e → ∃ ns', Chain m (.named n) ns' e ∧ ns.length < ns'.length

theorem ComesFrom.cons (h : m.ComesFrom seen (.named n)) (hsome : m.typedef? n = some t) :
    m.ComesFrom (n :: seen) t.target := by
  intro n' hn' ns e hchain
  have hlink : Chain m (.named n) (n :: ns) e := .link hsome hchain
  rcases List.mem_cons.mp hn' with rfl | hn'
  · exact ⟨_, hlink, Nat.lt_succ_self _⟩
  · obtain ⟨ns', hchain', hlt⟩ := h n' hn' _ e hlink
    exact ⟨ns', hchain', Nat.lt_of_succ_lt hlt⟩

/-- An alias that comes up again leads nowhere. -/
theorem ComesFrom.not_chain (h : m.ComesFrom seen (.named n)) (hn : n ∈ seen) :
    ¬Chain m (.named n) ns e := by
  intro hchain
  obtain ⟨ns', hchain', hlt⟩ := h n hn ns e hchain
  rw [(hchain.unique hchain').1] at hlt
  exact Nat.lt_irrefl _ hlt

/-- Following aliases comes to an end, since there are only so many to be seen, and it finds the end
of their chain if there is one. -/
theorem exists_openExpand (hnodup : seen.Nodup) (hkeys : seen ⊆ m.keys .typedef)
    (hseen : m.ComesFrom seen x) :
    ∃ r, m.openExpand seen x = some r ∧ ∀ e, r = some e ↔ ∃ ns, Chain m x ns e := by
  -- Every step leaves one alias less that was not seen.
  induction hk : m.typedefs.length - seen.length using Nat.strongRecOn generalizing seen x with
  | ind k ih =>
    match x with
    | .generic wrapper inner =>
        rw [openExpand]
        refine ⟨_, rfl, fun e => ⟨?_, ?_⟩⟩
        · rintro ⟨⟩
          exact ⟨[], .generic wrapper inner⟩
        · rintro ⟨ns, ⟨⟩⟩
          rfl
    | .named n =>
        rw [openExpand]
        cases hsome : m.typedef? n with
        | none =>
            refine ⟨_, rfl, fun e => ⟨?_, ?_⟩⟩
            · rintro ⟨⟩
              exact ⟨[], .name hsome⟩
            · rintro ⟨ns, hchain⟩
              cases hchain with
              | name => rfl
              | link hsome' => simp [hsome] at hsome'
        | some t =>
            obtain rfl := name_of_typedef? hsome
            dsimp only
            by_cases hmem : t.name ∈ seen
            · rw [if_pos hmem]
              refine ⟨none, rfl, fun e => iff_of_false (by simp) ?_⟩
              rintro ⟨ns, hchain⟩
              exact hseen.not_chain hmem hchain
            · rw [if_neg hmem]
              have hnodup' : (t.name :: seen).Nodup := List.nodup_cons.mpr ⟨hmem, hnodup⟩
              have hkeys' : t.name :: seen ⊆ m.keys .typedef := List.cons_subset.mpr
                ⟨List.mem_map_of_mem (mem_typedefs_of_typedef? hsome), hkeys⟩
              have hle := length_le_of_subset_keys hnodup' hkeys'
              rw [List.length_cons] at hle
              obtain ⟨r, hr, hchains⟩ := ih _ (by rw [List.length_cons]; omega) hnodup' hkeys'
                (hseen.cons hsome) rfl
              refine ⟨r, hr, fun e => (hchains e).trans ?_⟩
              simpa using (chain_iff_of_typedef? (P := (· = e)) hsome).symm

/-- From the target of an alias, with that alias seen, it does the same as `expand?`. -/
theorem openExpand_target (hsome : m.typedef? n = some t) :
    m.openExpand [t.name] t.target = some (m.expand? t) := by
  obtain rfl := name_of_typedef? hsome
  have hkeys : [t.name] ⊆ m.keys .typedef :=
    List.cons_subset.mpr ⟨List.mem_map_of_mem (mem_typedefs_of_typedef? hsome), List.nil_subset _⟩
  have hseen : m.ComesFrom [t.name] t.target := ComesFrom.cons (fun _ hn => by cases hn) hsome
  obtain ⟨r, hr, hchains⟩ := exists_openExpand (List.nodup_singleton _) hkeys hseen
  rw [hr]
  refine congrArg some (Option.ext fun e => ?_)
  rw [hchains e, expand?_eq_some_iff]

theorem openIsGenericAlias_eq (hsome : m.typedef? n = some t) :
    m.openIsGenericAlias t = some (m.isGenericAlias t) := by
  rw [openIsGenericAlias, openExpand_target hsome, isGenericAlias]
  rcases m.expand? t with _ | _ | _ <;> rfl

theorem openIsNested_named (m : Model) (n : String) :
    m.openIsNested (.named n) = some ((m.typedef? n).any m.isGenericAlias) := by
  rw [openIsNested]
  cases hsome : m.typedef? n with
  | none => rfl
  | some t => exact openIsGenericAlias_eq hsome

/-! ## Kinds -/

/-- The kind of a name is found if that is so for what its alias stands for. -/
theorem openNameKind_eq {isBound : Typedef → Bool}
    (hbound : ∀ t, m.typedef? n = some t → m.openIsBoundAlias t = some (isBound t)) :
    m.openNameKind n = some (m.nameKind? isBound n) := by
  rw [openNameKind, nameKind?]
  rcases Scalar.find? n with _ | s
  swap
  · rfl
  rcases m.enum? n with _ | e
  swap
  · rfl
  rcases m.dictionary? n with _ | d
  swap
  · rfl
  rcases m.interface? n with _ | i
  swap
  · rfl
  cases hsome : m.typedef? n with
  | none => rfl
  | some t =>
      dsimp only
      rw [hbound t hsome]
      cases t.target with
      | named target =>
          rcases Option.eq_none_or_eq_some (Scalar.find? target) with hscalar | ⟨s, hscalar⟩
          · cases isBound t <;> simp [hscalar]
          · simp [hscalar]
      | generic => cases isBound t <;> rfl

theorem openNameKind_of_typedef?_eq_none (hnone : m.typedef? n = none)
    (isBound : Typedef → Bool) : m.openNameKind n = some (m.nameKind? isBound n) :=
  openNameKind_eq fun t hsome => by simp [hnone] at hsome

theorem openResolve_named {kind : Option NameKind} (h : m.openNameKind n = some kind) :
    m.openResolve (.named n) = some (kind.map .name) := by
  rw [openResolve, h]
  rfl

/-- At the end of a chain there is no alias to follow. -/
theorem openResolve_of_expand? (he : m.expand? t = some (.named n)) :
    m.openResolve (.named n) = some ((m.endKind? n).map .name) := by
  obtain ⟨ns, hchain⟩ := expand?_eq_some_iff.mp he
  exact openResolve_named (openNameKind_of_typedef?_eq_none hchain.typedef?_eq_none _)

/-- An alias that stands for no wrapper is followed to a name, and no further. -/
theorem openIsBoundAlias_of_plain (hsome : m.typedef? n = some t)
    (hplain : m.isGenericAlias t = false) : m.openIsBoundAlias t = some (m.isPlainAlias t) := by
  rw [openIsBoundAlias, openExpand_target hsome, isPlainAlias]
  rw [isGenericAlias] at hplain
  cases he : m.expand? t with
  | none => rfl
  | some e =>
      rw [he] at hplain
      cases e with
      | generic => cases hplain
      | named n =>
          show (do return (← m.openResolve (.named n)).isSome) = _
          rw [openResolve_of_expand? he]
          simp

/-- Inside a wrapper only names come up that stand for no wrapper. -/
theorem openResolve_generic (m : Model) (wrapper n : String) :
    m.openResolve (.generic wrapper (.named n)) = some (m.genericKind? wrapper n) := by
  rw [openResolve, genericKind?]
  cases Wrapper.ofName? wrapper with
  | none => rfl
  | some w =>
      dsimp only
      rw [openIsNested_named]
      cases hnested : (m.typedef? n).any m.isGenericAlias with
      | true => rfl
      | false =>
          have hkind : m.openNameKind n = some (m.nameKind? m.isPlainAlias n) := by
            apply openNameKind_eq
            intro t hsome
            rw [hsome, Option.any_some] at hnested
            exact openIsBoundAlias_of_plain hsome hnested
          rw [openResolve_named hkind]
          cases m.nameKind? m.isPlainAlias n with
          | none => rfl
          | some kind =>
              cases kind with
              | scalar s =>
                  by_cases hundef : s.family = .undefined ∧ w ≠ .promise <;> simp [hundef]
              | _ => rfl

theorem openResolve_nested (m : Model) (wrapper inner : String) (x : IdlType) :
    m.openResolve (.generic wrapper (.generic inner x)) = some none := by
  rw [openResolve]
  cases Wrapper.ofName? wrapper <;> rfl

theorem openIsBoundAlias_eq (hsome : m.typedef? n = some t) :
    m.openIsBoundAlias t = some (m.isBoundAlias t) := by
  rw [openIsBoundAlias, openExpand_target hsome, isBoundAlias]
  cases he : m.expand? t with
  | none => rfl
  | some e =>
      show (do return (← m.openResolve e).isSome) = _
      rcases e with n | ⟨wrapper, inner | ⟨inner, x⟩⟩
      · rw [openResolve_of_expand? he]
        simp
      · rw [openResolve_generic]
        rfl
      · rw [openResolve_nested]
        rfl

/-- **Resolution returns.** -/
theorem openResolve_eq (m : Model) (x : IdlType) : m.openResolve x = some (m.resolve? x) := by
  rcases x with n | ⟨wrapper, n | ⟨inner, x⟩⟩
  · exact openResolve_named (openNameKind_eq fun t hsome => openIsBoundAlias_eq hsome)
  · exact m.openResolve_generic wrapper n
  · exact m.openResolve_nested wrapper inner x

/-! ## Kinds of values -/

/-- The name of an alias resolves to it where the target is the name of a scalar or the alias counts
as bound. -/
theorem typedef?_of_nameKind? {isBound : Typedef → Bool} {basic : Option Scalar}
    (hkind : m.nameKind? isBound n = some (.typedef t basic)) :
    m.typedef? n = some t ∧
      ((∃ target s, t.target = .named target ∧ Scalar.find? target = some s) ∨
        isBound t = true) := by
  rw [nameKind?] at hkind
  split at hkind
  · cases hkind
  split at hkind
  · cases hkind
  split at hkind
  · cases hkind
  split at hkind
  · cases hkind
  split at hkind
  · cases hkind
  · next t' hsome =>
      simp only [Option.ite_none_right_eq_some, Option.some.injEq, NameKind.typedef.injEq,
        Bool.or_eq_true] at hkind
      obtain ⟨hcase, rfl, _⟩ := hkind
      refine ⟨hsome, hcase.imp_left fun hbasic => ?_⟩
      split at hbasic
      · next target htarget =>
          obtain ⟨s, hs⟩ := Option.isSome_iff_exists.mp hbasic
          exact ⟨target, s, htarget, hs⟩
      · cases hbasic

theorem typedef?_of_resolve? {basic : Option Scalar}
    (hx : m.resolve? x = some (.name (.typedef t basic))) :
    ∃ n, x = .named n ∧ m.typedef? n = some t ∧
      ((∃ target s, t.target = .named target ∧ Scalar.find? target = some s) ∨
        m.isBoundAlias t = true) := by
  obtain ⟨n, rfl, hkind⟩ := nameKind?_of_resolve? hx
  exact ⟨n, rfl, typedef?_of_nameKind? hkind⟩

/-- One step: the kind of value is found if that is so for the target, where there is one. -/
theorem openCategory_step {k : Nat}
    (htarget : ∀ t basic, m.resolve? x = some (.name (.typedef t basic)) →
      ∃ k', k = k' + 1 ∧ m.openCategory t.target = some (m.categoryWithin? k' t.target)) :
    m.openCategory x = some (m.categoryWithin? k x) := by
  rw [openCategory, openResolve_eq, categoryWithin?]
  cases hx : m.resolve? x with
  | none => rfl
  | some kind =>
      match kind with
      | .name (.scalar s) | .name (.enumeration e) | .name (.dictionary d) | .name (.interface i) =>
          rfl
      | .name (.typedef t basic) =>
          obtain ⟨k', rfl, ht⟩ := htarget t basic hx
          exact ht
      | .generic .promise _ _ | .generic .sequence _ _ | .generic .frozenArray _ _ => rfl

theorem openCategory_of_chain {k : Nat} (hchain : Chain m x ns e) (hk : ns.length ≤ k) :
    m.openCategory x = some (m.categoryWithin? k x) := by
  induction hchain generalizing k with
  | generic wrapper inner =>
      apply openCategory_step
      intro t basic hx
      obtain ⟨n, hn, _⟩ := typedef?_of_resolve? hx
      cases hn
  | name hnone =>
      apply openCategory_step
      intro t basic hx
      obtain ⟨n, hn, hsome, _⟩ := typedef?_of_resolve? hx
      cases hn
      simp [hnone] at hsome
  | link hsome _ ih =>
      apply openCategory_step
      intro t basic hx
      obtain ⟨n, hn, hsome', _⟩ := typedef?_of_resolve? hx
      cases hn
      obtain rfl : _ = _ := Option.some.inj (hsome.symm.trans hsome')
      obtain ⟨k', rfl⟩ := Nat.exists_eq_add_of_le' (Nat.le_trans (Nat.succ_pos _) hk)
      exact ⟨k', rfl, ih (Nat.le_of_succ_le_succ hk)⟩

/-- **The kind of value of a type is found.** -/
theorem openCategory_eq (m : Model) (x : IdlType) :
    m.openCategory x = some (m.expectedCategory? x) := by
  rw [expectedCategory?]
  by_cases hchain : ∃ ns e, Chain m x ns e
  · obtain ⟨ns, e, hchain⟩ := hchain
    exact openCategory_of_chain hchain hchain.length_le
  · apply openCategory_step
    intro t basic hx
    obtain ⟨n, rfl, hsome, ⟨target, s, htarget, hs⟩ | hbound⟩ := typedef?_of_resolve? hx
    · -- The target is known as a scalar before it is looked for among the aliases.
      have hpos := List.length_pos_of_mem (mem_typedefs_of_typedef? hsome)
      obtain ⟨k, hk⟩ := Nat.exists_eq_add_of_lt hpos
      refine ⟨k, by omega, openCategory_step fun t' basic' ht' => ?_⟩
      rw [htarget, resolve?, nameKind?, hs] at ht'
      cases ht'
    · obtain ⟨ns, e, htarget, _⟩ := isBoundAlias_iff.mp hbound
      exact absurd ⟨_, e, .link hsome htarget⟩ hchain

/-- An alias expects what its target does. -/
theorem WellNamed.expectedCategory?_typedef (h : m.WellNamed) (ht : t ∈ m.typedefs) :
    m.expectedCategory? (.named t.name) = m.expectedCategory? t.target := by
  have hiff := h.resolve?_typedef_isSome_iff ht
  apply Option.some.inj
  rw [← openCategory_eq, ← openCategory_eq]
  cases hx : m.resolve? (.named t.name) with
  | none =>
      rw [hx, Option.isSome_none, Bool.false_eq_true, false_iff, Option.not_isSome_iff_eq_none]
        at hiff
      rw [openCategory, openResolve_eq, hx, openCategory, openResolve_eq, hiff]
  | some kind =>
      obtain ⟨basic, hresolve⟩ := h.resolve?_of_typedef? (h.typedef?_of_mem ht) (by rw [hx]; rfl)
      rw [openCategory, openResolve_eq, hresolve]
      rfl

end Model

/-- **Resolution finds the least relation.** Where no name has two meanings, resolution comes to an
end for every type, and so does the search for the kind of value that a type expects. A type
resolves exactly if it has bindings by the rules. Hence a type that resolves has one full expansion,
with at most one wrapper, and an alias expects the same kind of value as its target. -/
theorem resolution_exact {m : Model} (h : m.WellNamed) :
    (∀ x, m.openResolve x = some (m.resolve? x) ∧
        m.openCategory x = some (m.expectedCategory? x)) ∧
      (∀ x, (m.resolve? x).isSome = true ↔ m.Convertible x) ∧
      (∀ x, (m.resolve? x).isSome = true →
        ∃ e, m.FullExpansion x e ∧ (∀ e', m.FullExpansion x e' → e' = e) ∧ e.wrappers ≤ 1) ∧
      ∀ t ∈ m.typedefs, m.expectedCategory? (.named t.name) = m.expectedCategory? t.target := by
  refine ⟨fun x => ⟨m.openResolve_eq x, m.openCategory_eq x⟩,
    fun x => h.resolve?_isSome_iff_convertible, fun x hx => ?_,
    fun t ht => h.expectedCategory?_typedef ht⟩
  obtain ⟨e, he, hwrappers⟩ := h.exists_fullExpansion hx
  exact ⟨e, he, fun e' he' => he'.unique he, hwrappers⟩

/-- Aliases that lead to a scalar, to a wrapper, to each other, and through a wrapper to
themselves. -/
def knotted : Model where
  interfaces := [⟨"Node", []⟩]
  dictionaries := []
  enums := []
  typedefs := [⟨"Size", .named "unsigned long"⟩, ⟨"Extent", .named "Size"⟩,
    ⟨"Nodes", .generic "sequence" (.named "Node")⟩, ⟨"Ping", .named "Pong"⟩,
    ⟨"Pong", .named "Ping"⟩, ⟨"Knot", .generic "Promise" (.named "Knot")⟩]

theorem resolution_exact_knotted :
    knotted.WellNamed ∧ knotted.openResolve (.named "Ping") = some none ∧
      knotted.openResolve (.named "Knot") = some none ∧
      knotted.openCategory (.named "Extent") = some (some .number) ∧
      knotted.Convertible (.generic "Promise" (.named "Extent")) ∧
      knotted.Convertible (.named "Nodes") ∧ ¬knotted.Convertible (.named "Ping") ∧
      ¬knotted.Convertible (.named "Knot") ∧
      knotted.expectedCategory? (.named "Extent") = knotted.expectedCategory? (.named "Size") := by
  have hnamed : knotted.WellNamed := by
    refine ⟨by decide, fun s hs k => ?_⟩
    cases k <;> revert s <;> decide
  obtain ⟨hreturns, hresolve, _, hcategory⟩ := resolution_exact hnamed
  have hping : knotted.resolve? (.named "Ping") = none :=
    Option.not_isSome_iff_eq_none.mp (by decide)
  have hknot : knotted.resolve? (.named "Knot") = none :=
    Option.not_isSome_iff_eq_none.mp (by decide)
  refine ⟨hnamed, ?_, ?_, ?_, (hresolve _).mp (by decide), (hresolve _).mp (by decide), ?_, ?_,
    hcategory ⟨"Extent", .named "Size"⟩ (by decide)⟩
  · rw [(hreturns _).1, hping]
  · rw [(hreturns _).1, hknot]
  · rw [(hreturns _).2]
    decide
  · rw [← hresolve, hping]
    decide
  · rw [← hresolve, hknot]
    decide

end IdlBindings
