import IdlBindings.Proofs.Model.Lineage
import Mathlib.Data.List.Chain

/-!
# Where a walk up the ancestors fails

Links lead from names to names. A walk from a name goes wrong where it comes to a name that is not
known, or to one that it has passed. What is shown here holds both ways: from a body whose ancestors
are all found no path goes wrong, however long, and a walk that fails tells the link or the circle
that is to blame.

## Main definitions

* `LeadsAstray`: some path from a name goes wrong
* `IsDangling`, `IsCircular`: a link to nowhere, and names that come back to one of them
-/
namespace IdlBindings

/-! ## Links -/

section Links

variable {parent : String → Option String} {known : String → Prop}

/-- Following links from a name gets to one that is not known, or to one for the second time. -/
def LeadsAstray (parent : String → Option String) (known : String → Prop) (start : String) :
    Prop :=
  ∃ path, (start :: path).IsChain (fun child above => parent child = some above) ∧
    ((∃ n ∈ path, ¬known n) ∨ ¬(start :: path).Nodup)

/-- The link of a known name leads to one that is not known. -/
def IsDangling (parent : String → Option String) (known : String → Prop)
    (name ancestor : String) : Prop :=
  known name ∧ parent name = some ancestor ∧ ¬known ancestor

/-- Each name is followed by the one that its link leads to, and the last one is the first that
comes up for the second time. -/
def IsCircular (parent : String → Option String) (names : List String) : Prop :=
  names.IsChain (fun child above => parent child = some above) ∧
    ∃ passed last, names = passed ++ [last] ∧ passed.Nodup ∧ last ∈ passed

theorem IsDangling.leadsAstray {name ancestor : String}
    (h : IsDangling parent known name ancestor) : LeadsAstray parent known name := by
  obtain ⟨_, hlink, hunknown⟩ := h
  exact ⟨[ancestor], by simpa using hlink, .inl ⟨ancestor, by simp, hunknown⟩⟩

/-- A circle has a start, which has a link. -/
theorem IsCircular.exists_leadsAstray {names : List String} (h : IsCircular parent names) :
    ∃ start above, parent start = some above ∧ LeadsAstray parent known start := by
  obtain ⟨hchain, passed, last, rfl, _, hlast⟩ := h
  cases passed with
  | nil => simp at hlast
  | cons start passed =>
      have hrepeated : ¬(start :: (passed ++ [last])).Nodup := by
        rw [← List.cons_append]
        intro hnodup
        exact (List.nodup_append.mp hnodup).2.2 last hlast last (by simp) rfl
      obtain ⟨above, hlink⟩ : ∃ above, parent start = some above := by
        cases passed with
        | nil => exact ⟨last, by simpa using hchain⟩
        | cons above rest => exact ⟨above, (List.isChain_cons_cons.mp hchain).1⟩
      exact ⟨start, above, hlink, passed ++ [last], hchain, .inr hrepeated⟩

end Links

namespace Body

variable {μ : Type} {kind : InheritingKind} {bodies : List (Body μ)} {b : Body μ}

theorem parentOf_name (hb : find? bodies b.name = some b) : parentOf bodies b.name = b.parent := by
  simp [parentOf, hb]

/-! ## Where all ancestors are found -/

/-- Every path from a body is the start of its ancestors. -/
theorem Lineage.path_isPrefix {above : List (Body μ)} (h : Lineage bodies b above)
    (hb : find? bodies b.name = some b) {path : List String}
    (hpath : (b.name :: path).IsChain fun child above => parentOf bodies child = some above) :
    path <+: names above := by
  induction h generalizing path with
  | root hroot =>
      cases path with
      | nil => exact List.nil_prefix
      | cons n path =>
          have hlink := (List.isChain_cons_cons.mp hpath).1
          simp [parentOf_name hb, hroot] at hlink
  | @heir b a above parent hparent hfind _ ih =>
      cases path with
      | nil => exact List.nil_prefix
      | cons n path =>
          obtain ⟨hlink, hrest⟩ := List.isChain_cons_cons.mp hpath
          obtain rfl : parent = n := by
            simpa [parentOf_name hb, hparent] using hlink
          obtain rfl := name_of_find? hfind
          simpa using ih hfind hrest

/-- An ancestor has fewer ancestors than its heir. -/
theorem Lineage.exists_of_mem {above : List (Body μ)} {n : String} (h : Lineage bodies b above)
    (hn : n ∈ names above) :
    ∃ a rest, find? bodies n = some a ∧ Lineage bodies a rest ∧ rest.length < above.length := by
  induction h with
  | root => simp at hn
  | @heir b a above parent _ hfind habove ih =>
      rcases List.mem_cons.mp hn with rfl | hn
      · rw [← name_of_find? hfind] at hfind
        exact ⟨a, above, hfind, habove, by simp⟩
      · obtain ⟨c, rest, hc, hrest, hlt⟩ := ih hn
        refine ⟨c, rest, hc, hrest, ?_⟩
        rw [List.length_cons]
        omega

/-- No body is among its own ancestors, and none of them comes up twice. -/
theorem Lineage.nodup_names {above : List (Body μ)} (h : Lineage bodies b above)
    (hb : find? bodies b.name = some b) : (names (b :: above)).Nodup := by
  induction h with
  | root => exact List.nodup_singleton _
  | @heir b a above parent hparent hfind habove ih =>
      have ha := find?_name hfind
      rw [names_cons, List.nodup_cons]
      refine ⟨?_, ih ha⟩
      intro hmem
      -- The body would have ancestors twice, and fewer of them the second time.
      have hall := Lineage.heir hparent hfind habove
      obtain ⟨c, rest, hc, hrest, hlt⟩ := hall.exists_of_mem hmem
      obtain rfl : b = c := Option.some.inj (hb.symm.trans hc)
      rw [hrest.unique hall] at hlt
      exact Nat.lt_irrefl _ hlt

theorem Lineage.not_leadsAstray {above : List (Body μ)} (h : Lineage bodies b above)
    (hb : find? bodies b.name = some b) :
    ¬LeadsAstray (parentOf bodies) (· ∈ names bodies) b.name := by
  rintro ⟨path, hpath, hwrong⟩
  have hfront := h.path_isPrefix hb hpath
  rcases hwrong with ⟨n, hn, hunknown⟩ | hrepeated
  · obtain ⟨a, _, ha, _⟩ := h.exists_of_mem (hfront.subset hn)
    exact hunknown (mem_names_iff.mpr ⟨a, ha⟩)
  · apply hrepeated
    exact (h.nodup_names hb).sublist (List.cons_sublist_cons.mpr hfront.sublist)

/-! ## Where an ancestor is not found -/

/-- A walk that fails has come to the end of a dangling link, or has closed a circle. The names that
it has passed are a path, which grows with every step. -/
theorem ancestorsFrom_eq_error {n : Nat} {passed : List String} {fault : ModelFault}
    (hb : find? bodies b.name = some b)
    (hpath : (passed ++ [b.name]).IsChain fun child above => parentOf bodies child = some above)
    (hnodup : (passed ++ [b.name]).Nodup)
    (h : ancestorsFrom kind bodies n (passed ++ [b.name]) b = .error fault) :
    (∃ name ancestor, fault = .unresolvedAncestor kind name ancestor ∧
        IsDangling (parentOf bodies) (· ∈ names bodies) name ancestor) ∨
      ∃ names, fault = .inheritanceCycle kind names ∧ IsCircular (parentOf bodies) names := by
  induction n generalizing passed b with
  | zero => simp [ancestorsFrom] at h
  | succ n ih =>
      rw [ancestorsFrom] at h
      cases hp : b.parent with
      | none => simp [hp] at h
      | some parent =>
          simp only [hp] at h
          have hlink : parentOf bodies b.name = some parent := (parentOf_name hb).trans hp
          have hlonger : (passed ++ [b.name] ++ [parent]).IsChain
              fun child above => parentOf bodies child = some above := by
            rw [List.isChain_append]
            simpa [hlink] using hpath
          by_cases hmem : parent ∈ passed ++ [b.name]
          · rw [if_pos hmem, Except.error.injEq] at h
            exact .inr ⟨_, h.symm, hlonger, _, _, rfl, hnodup, hmem⟩
          · rw [if_neg hmem] at h
            cases hf : find? bodies parent with
            | none =>
                simp only [hf, Except.error.injEq] at h
                refine .inl ⟨_, _, h.symm, mem_names_iff.mpr ⟨b, hb⟩, hlink, ?_⟩
                simp [mem_names_iff, hf]
            | some a =>
                simp only [hf, bind_eq_error_iff] at h
                obtain rfl := name_of_find? hf
                rcases h with h | ⟨rest, _, hrest⟩
                · exact ih hf hlonger (by simpa using hnodup.concat hmem) h
                · cases hrest

theorem ancestors_eq_error {fault : ModelFault} (hb : find? bodies b.name = some b)
    (h : ancestors kind bodies b = .error fault) :
    (∃ name ancestor, fault = .unresolvedAncestor kind name ancestor ∧
        IsDangling (parentOf bodies) (· ∈ names bodies) name ancestor) ∨
      ∃ names, fault = .inheritanceCycle kind names ∧ IsCircular (parentOf bodies) names :=
  @ancestorsFrom_eq_error _ _ _ _ _ [] _ hb (List.isChain_singleton _) (List.nodup_singleton _) h

end Body
end IdlBindings
