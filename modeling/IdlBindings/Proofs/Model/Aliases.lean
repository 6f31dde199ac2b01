import IdlBindings.Model.Resolve
import IdlBindings.Proofs.Model.Naming
import Mathlib.Data.List.Perm.Subperm

/-!
# Chains of aliases

Following aliases from a type passes a list of names and ends in a wrapper or in a name that is no
alias, or it never ends. The names that are passed determine everything after them, so none comes up
twice where a chain ends, and there are no more of them than aliases. A walk of that many steps
therefore finds every end there is.

## Main definitions

* `Model.WellNamed`: no name has two meanings
* `Model.IsKnown`: names that stand for themselves
* `Model.Chain`: the names that are passed from a type, and the type they end in
-/
namespace IdlBindings.Model

variable {m : Model} {n : String} {t : Typedef} {x e e' : IdlType} {ns ns' : List String} {k : Nat}

/-! ## Names with one meaning -/

/-- Every name of a definition stands for it alone: names are distinct, also across the four lists,
and no scalar has one of them. -/
structure WellNamed (m : Model) : Prop where
  distinct : (m.keys .interface ++ m.keys .dictionary ++ m.keys .enumeration ++
    m.keys .typedef).Nodup
  no_scalar : ∀ s ∈ Scalar.all, ∀ k, s.name ∉ m.keys k

theorem typedef?_eq_none_iff : m.typedef? n = none ↔ n ∉ m.keys .typedef := by
  simp [typedef?, keys, List.find?_eq_none]

theorem name_of_typedef? (h : m.typedef? n = some t) : t.name = n := by
  simpa using List.find?_some h

theorem mem_typedefs_of_typedef? (h : m.typedef? n = some t) : t ∈ m.typedefs :=
  List.mem_of_find?_eq_some h

/-- There are no more names of aliases than aliases. -/
theorem length_le_of_subset_keys (hnodup : ns.Nodup) (hkeys : ns ⊆ m.keys .typedef) :
    ns.length ≤ m.typedefs.length := by
  simpa [keys] using (List.subperm_of_subset hnodup hkeys).length_le

/-- The name is known without following an alias: it is that of a scalar, or of a definition that is
no alias. -/
def IsKnown (m : Model) (n : String) : Prop :=
  (∃ s ∈ Scalar.all, s.name = n) ∨ ∃ k, k ≠ .typedef ∧ n ∈ m.keys k

namespace WellNamed

theorem typedef?_of_mem (h : m.WellNamed) (ht : t ∈ m.typedefs) : m.typedef? t.name = some t := by
  have hnodup : (m.typedefs.map Typedef.name).Nodup := (List.nodup_append.mp h.distinct).2.1
  cases hfind : m.typedef? t.name with
  | none => exact absurd (List.mem_map_of_mem ht) (typedef?_eq_none_iff.mp hfind)
  | some t' =>
      have hname := name_of_typedef? hfind
      rw [List.inj_on_of_nodup_map hnodup (mem_typedefs_of_typedef? hfind) ht hname]

/-- A known name is no alias. -/
theorem typedef?_of_isKnown (h : m.WellNamed) (hn : m.IsKnown n) : m.typedef? n = none := by
  rw [typedef?_eq_none_iff]
  rcases hn with ⟨s, hs, rfl⟩ | ⟨k, hk, hn⟩
  · exact h.no_scalar s hs .typedef
  · intro halias
    have hdisjoint := (List.nodup_append.mp h.distinct).2.2
    refine hdisjoint n ?_ n halias rfl
    cases k with
    | typedef => exact absurd rfl hk
    | _ => simp [hn]

end WellNamed

/-! ## Chains -/

/-- Aliases lead from a type to `e`, which is no alias, passing the names `ns`. -/
inductive Chain (m : Model) : IdlType → List String → IdlType → Prop
  | generic (wrapper : String) (inner : IdlType) :
      Chain m (.generic wrapper inner) [] (.generic wrapper inner)
  | name {n : String} (hnone : m.typedef? n = none) : Chain m (.named n) [] (.named n)
  | link {n : String} {t : Typedef} {ns : List String} {e : IdlType}
      (hsome : m.typedef? n = some t) (hrest : Chain m t.target ns e) :
      Chain m (.named n) (n :: ns) e

namespace Chain

theorem unique (h : Chain m x ns e) (h' : Chain m x ns' e') : ns = ns' ∧ e = e' := by
  induction h generalizing ns' with
  | generic => cases h'; exact ⟨rfl, rfl⟩
  | name hnone =>
      cases h' with
      | name => exact ⟨rfl, rfl⟩
      | link hsome => simp [hnone] at hsome
  | link hsome _ ih =>
      cases h' with
      | name hnone => simp [hnone] at hsome
      | link hsome' hrest' =>
          obtain rfl : _ = _ := Option.some.inj (hsome.symm.trans hsome')
          obtain ⟨rfl, rfl⟩ := ih hrest'
          exact ⟨rfl, rfl⟩

/-- A name at the end of a chain is no alias. -/
theorem typedef?_eq_none (h : Chain m x ns (.named n)) : m.typedef? n = none := by
  generalize he : IdlType.named n = e at h
  induction h with
  | generic => cases he
  | name hnone =>
      cases he
      exact hnone
  | link _ _ ih => exact ih he

/-- From a name that is passed, the chain is what is left of it. -/
theorem exists_of_mem (h : Chain m x ns e) (hn : n ∈ ns) :
    ∃ rest, Chain m (.named n) rest e ∧ rest.length ≤ ns.length := by
  induction h with
  | generic => simp at hn
  | name => simp at hn
  | @link n' t ns e hsome hrest ih =>
      rcases List.mem_cons.mp hn with rfl | hn
      · exact ⟨_, .link hsome hrest, Nat.le_refl _⟩
      · obtain ⟨rest, hchain, hle⟩ := ih hn
        exact ⟨rest, hchain, by simp only [List.length_cons]; omega⟩

/-- No name is passed twice. -/
theorem nodup (h : Chain m x ns e) : ns.Nodup := by
  induction h with
  | generic => exact .nil
  | name => exact .nil
  | link hsome hrest ih =>
      refine List.nodup_cons.mpr ⟨?_, ih⟩
      intro hmem
      -- The name would lead on twice, over chains of different lengths.
      obtain ⟨rest, hagain, hle⟩ := hrest.exists_of_mem hmem
      obtain ⟨rfl, _⟩ := hagain.unique (.link hsome hrest)
      simp only [List.length_cons] at hle
      omega

theorem subset_keys (h : Chain m x ns e) : ns ⊆ m.keys .typedef := by
  induction h with
  | generic => simp
  | name => simp
  | link hsome _ ih =>
      refine List.cons_subset.mpr ⟨?_, ih⟩
      rw [← name_of_typedef? hsome]
      exact List.mem_map_of_mem (mem_typedefs_of_typedef? hsome)

theorem length_le (h : Chain m x ns e) : ns.length ≤ m.typedefs.length :=
  length_le_of_subset_keys h.nodup h.subset_keys

end Chain

/-- A walk finds the end of a chain exactly if it has a step for every name. -/
theorem follow?_eq_some_iff :
    m.follow? k x = some e ↔ ∃ ns, Chain m x ns e ∧ ns.length ≤ k := by
  constructor
  · intro h
    fun_induction follow? m k x with
    | case1 k wrapper inner =>
        obtain rfl := Option.some.inj h
        exact ⟨[], .generic wrapper inner, Nat.zero_le _⟩
    | case2 k n hnone =>
        obtain rfl := Option.some.inj h
        exact ⟨[], .name hnone, Nat.zero_le _⟩
    | case3 => simp at h
    | case4 n t hsome k ih =>
        obtain ⟨ns, hchain, hle⟩ := ih h
        exact ⟨n :: ns, .link hsome hchain, Nat.succ_le_succ hle⟩
  · rintro ⟨ns, hchain, hle⟩
    induction hchain generalizing k with
    | generic => simp [follow?]
    | name hnone => simp [follow?, hnone]
    | link hsome _ ih =>
        cases k with
        | zero => simp at hle
        | succ k => simpa [follow?, hsome] using ih (Nat.le_of_succ_le_succ hle)

/-- With a step for every alias, a walk finds whatever end there is. -/
theorem follow?_eq_some_iff_chain (hk : m.typedefs.length ≤ k) :
    m.follow? k x = some e ↔ ∃ ns, Chain m x ns e := by
  rw [follow?_eq_some_iff]
  exact exists_congr fun ns => and_iff_left_of_imp fun h => Nat.le_trans h.length_le hk

theorem expand?_eq_some_iff : m.expand? t = some e ↔ ∃ ns, Chain m t.target ns e :=
  follow?_eq_some_iff_chain (Nat.le_refl _)

end IdlBindings.Model
