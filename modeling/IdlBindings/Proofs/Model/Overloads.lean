import IdlBindings.Proofs.Model.Enumerators
import Mathlib.Data.List.Nodup

/-!
# Overload sets

Operations go into sets one by one, each to the set of its name or to a new one at the end. The sets
that come out are those of all names in the order of their first operation, each with the operations
of that name in the order of the members.

## Main definitions

* `operationsByName`: the sets, name by name
-/
namespace IdlBindings

/-- The operations of each name, with names in the order of their first operation. -/
def operationsByName (ops : List Operation) : List (String × List Operation) :=
  (ops.map Operation.name).eraseDups.map fun n => (n, ops.filter fun op => op.name == n)

theorem nodup_eraseDups (names : List String) : names.eraseDups.Nodup := by
  induction names using List.reverseRecOn with
  | nil => exact .nil
  | append_singleton names n ih =>
      rw [eraseDups_concat]
      split
      · exact ih
      · next hn =>
          refine List.nodup_append.mpr ⟨ih, List.nodup_singleton n, ?_⟩
          rintro n' hn' _ hlast rfl
          rw [List.mem_singleton] at hlast
          exact hn (hlast ▸ List.mem_eraseDups.mp hn')

/-! ## One more operation -/

theorem insertOperation_of_notMem {names : List String} {f : String → List Operation}
    {op : Operation} (hop : op.name ∉ names) :
    insertOperation op (names.map fun n => (n, f n)) =
      names.map (fun n => (n, f n)) ++ [(op.name, [op])] := by
  induction names with
  | nil => rfl
  | cons n names ih =>
      rw [List.mem_cons, not_or] at hop
      rw [List.map_cons, insertOperation, if_neg (Ne.symm hop.1), ih hop.2, List.cons_append]

theorem insertOperation_of_mem {names : List String} {f : String → List Operation}
    {op : Operation} (hnodup : names.Nodup) (hop : op.name ∈ names) :
    insertOperation op (names.map fun n => (n, f n)) =
      names.map fun n => (n, if op.name == n then f n ++ [op] else f n) := by
  induction names with
  | nil => cases hop
  | cons n names ih =>
      rw [List.nodup_cons] at hnodup
      rw [List.map_cons, List.map_cons, insertOperation]
      by_cases hn : n = op.name
      · -- The sets behind it have other names, and stay as they are.
        have hrest : ∀ n' ∈ names, ¬(op.name == n') = true := by
          intro n' hn' heq
          rw [beq_iff_eq, ← hn] at heq
          exact hnodup.1 (heq ▸ hn')
        rw [if_pos hn, if_pos (beq_iff_eq.mpr hn.symm), List.cons.injEq]
        refine ⟨rfl, List.map_congr_left fun n' hn' => ?_⟩
        rw [if_neg (hrest n' hn')]
      · have hop : op.name ∈ names := by
          rcases List.mem_cons.mp hop with heq | hop
          · exact absurd heq.symm hn
          · exact hop
        rw [if_neg hn, if_neg (by simpa using Ne.symm hn), ih hnodup.2 hop]

theorem insertOperation_byName (ops : List Operation) (op : Operation) :
    insertOperation op (operationsByName ops) = operationsByName (ops ++ [op]) := by
  have hset : ∀ n, (ops ++ [op]).filter (fun op => op.name == n) =
      if op.name == n then ops.filter (fun op => op.name == n) ++ [op]
      else ops.filter fun op => op.name == n := by
    intro n
    rw [List.filter_append, List.filter_singleton]
    by_cases hn : op.name == n <;> simp [hn]
  rw [operationsByName, operationsByName, List.map_append, List.map_singleton, eraseDups_concat]
  simp only [hset]
  by_cases hop : op.name ∈ ops.map Operation.name
  · rw [if_pos hop, insertOperation_of_mem (nodup_eraseDups _) (List.mem_eraseDups.mpr hop)]
  · rw [if_neg hop, insertOperation_of_notMem (mt List.mem_eraseDups.mp hop), List.map_append,
      List.map_singleton]
    have hnone : ops.filter (fun o => o.name == op.name) = [] := by
      rw [List.filter_eq_nil_iff]
      intro o ho heq
      exact hop (List.mem_map.mpr ⟨o, ho, beq_iff_eq.mp heq⟩)
    have hother : ∀ n ∈ (ops.map Operation.name).eraseDups, ¬(op.name == n) = true := by
      intro n hn heq
      exact hop (beq_iff_eq.mp heq ▸ List.mem_eraseDups.mp hn)
    rw [hnone, if_pos (beq_self_eq_true _), List.nil_append]
    refine congrArg (· ++ _) (List.map_congr_left fun n hn => ?_)
    rw [if_neg (hother n hn)]

/-! ## All operations -/

namespace Interface

variable {i : Interface} {set : String × List Operation}

theorem overloadSets_eq (i : Interface) : i.overloadSets = operationsByName i.operations := by
  rw [overloadSets]
  induction i.operations using List.reverseRecOn with
  | nil => rfl
  | append_singleton ops op ih =>
      rw [List.foldl_append, List.foldl_cons, List.foldl_nil, ih, insertOperation_byName]

theorem names_overloadSets (i : Interface) :
    i.overloadSets.map Prod.fst = (i.operations.map Operation.name).eraseDups := by
  rw [overloadSets_eq, operationsByName, List.map_map]
  exact List.map_id _

theorem nodup_names_overloadSets (i : Interface) : (i.overloadSets.map Prod.fst).Nodup := by
  rw [names_overloadSets]
  exact nodup_eraseDups _

/-- A set is known by its name. -/
theorem eq_of_mem_overloadSets {set' : String × List Operation} (hset : set ∈ i.overloadSets)
    (hset' : set' ∈ i.overloadSets) (hname : set.1 = set'.1) : set = set' :=
  List.inj_on_of_nodup_map i.nodup_names_overloadSets hset hset' hname

theorem mem_names_overloadSets_iff {n : String} :
    n ∈ i.overloadSets.map Prod.fst ↔ ∃ op ∈ i.operations, op.name = n := by
  rw [names_overloadSets, List.mem_eraseDups, List.mem_map]

/-- A set is the operations of its name, in the order of the members. -/
theorem operations_of_mem_overloadSets (hset : set ∈ i.overloadSets) :
    set.2 = i.operations.filter fun op => op.name == set.1 := by
  rw [overloadSets_eq, operationsByName, List.mem_map] at hset
  obtain ⟨n, _, rfl⟩ := hset
  rfl

theorem mem_overloadSet_iff {op : Operation} (hset : set ∈ i.overloadSets) :
    op ∈ set.2 ↔ op ∈ i.operations ∧ op.name = set.1 := by
  rw [operations_of_mem_overloadSets hset, List.mem_filter, beq_iff_eq]

/-- No set is empty. -/
theorem ne_nil_of_mem_overloadSets (hset : set ∈ i.overloadSets) : set.2 ≠ [] := by
  rw [overloadSets_eq, operationsByName, List.mem_map] at hset
  obtain ⟨n, hn, rfl⟩ := hset
  obtain ⟨op, hop, rfl⟩ := List.mem_map.mp (List.mem_eraseDups.mp hn)
  exact List.ne_nil_of_mem (List.mem_filter.mpr ⟨hop, beq_self_eq_true _⟩)

end Interface
end IdlBindings
