import IdlBindings.Model.Merge
import Mathlib.Data.List.Nodup

/-!
# Bodies by name

A list of bodies is looked at through its names: their order, and for each name the members gathered
under it and the parent that counts. Every step of putting bodies together appends, so each has one
equation for the names, one for the members and one for the parent. The equations for members hold
also where a name comes up twice, since the first body of a name is the one that is found and
extended.

## Main definitions

* `Body.names`: the names, in order
* `Body.membersOf`, `Body.parentOf`: what is found under a name
* `Body.gathered`: all members that stand under a name anywhere in a list
-/
namespace IdlBindings.Body

variable {μ : Type}

/-- The names of bodies, in order. -/
def names (bodies : List (Body μ)) : List String := bodies.map Body.name

/-- The members of the body with a name, none if there is no such body. -/
def membersOf (bodies : List (Body μ)) (name : String) : List μ :=
  ((find? bodies name).map Body.members).getD []

/-- The parent of the body with a name. -/
def parentOf (bodies : List (Body μ)) (name : String) : Option String :=
  (find? bodies name).bind Body.parent

/-- The members of all bodies with a name, in the order of the bodies. -/
def gathered (bodies : List (Body μ)) (name : String) : List μ :=
  bodies.flatMap fun b => if b.name = name then b.members else []

variable {bodies bases parts : List (Body μ)} {b part : Body μ} {name n : String} {ms : List μ}

/-! ## Looking up a name -/

@[simp] theorem names_nil : names ([] : List (Body μ)) = [] := rfl
@[simp] theorem names_cons : names (b :: bodies) = b.name :: names bodies := rfl
@[simp] theorem names_append : names (bases ++ parts) = names bases ++ names parts := by
  simp [names]

@[simp] theorem gathered_nil : gathered ([] : List (Body μ)) n = [] := rfl
@[simp] theorem gathered_cons :
    gathered (b :: bodies) n = (if b.name = n then b.members else []) ++ gathered bodies n := rfl

@[simp] theorem find?_nil : find? ([] : List (Body μ)) n = none := rfl

theorem find?_cons :
    find? (b :: bodies) n = if b.name = n then some b else find? bodies n := by
  by_cases h : b.name = n <;> simp [find?, h]

theorem find?_append : find? (bases ++ parts) n = (find? bases n).or (find? parts n) := by
  simp [find?, List.find?_append]

theorem name_of_find? (h : find? bodies n = some b) : b.name = n := by
  simpa using List.find?_some h

theorem mem_of_find? (h : find? bodies n = some b) : b ∈ bodies := List.mem_of_find?_eq_some h

theorem find?_name (h : find? bodies n = some b) : find? bodies b.name = some b := by
  rw [name_of_find? h]
  exact h

theorem mem_names_iff : n ∈ names bodies ↔ ∃ b, find? bodies n = some b := by
  rw [← Option.isSome_iff_exists]
  simp [find?, names, List.find?_isSome]

theorem find?_eq_none (h : n ∉ names bodies) : find? bodies n = none := by
  rw [mem_names_iff] at h
  cases hf : find? bodies n with
  | none => rfl
  | some b => exact absurd ⟨b, hf⟩ h

/-- Where names are distinct, every body is the one that its name finds. -/
theorem find?_of_mem (hnodup : (names bodies).Nodup) (hb : b ∈ bodies) :
    find? bodies b.name = some b := by
  induction bodies with
  | nil => simp at hb
  | cons a rest ih =>
      rw [names_cons, List.nodup_cons] at hnodup
      rw [find?_cons]
      rcases List.mem_cons.mp hb with rfl | hrest
      · simp
      · have hne : a.name ≠ b.name := by
          intro heq
          exact hnodup.1 (heq ▸ List.mem_map_of_mem hrest)
        rw [if_neg hne]
        exact ih hnodup.2 hrest

theorem membersOf_eq_nil (h : n ∉ names bodies) : membersOf bodies n = [] := by
  simp [membersOf, find?_eq_none h]

theorem gathered_eq_nil (h : n ∉ names bodies) : gathered bodies n = [] := by
  simp only [gathered, List.flatMap_eq_nil_iff]
  intro b hb
  have hne : b.name ≠ n := by
    rintro rfl
    exact h (List.mem_map_of_mem hb)
  simp [hne]

/-- Where names are distinct, nothing stands under a name besides what is found. -/
theorem membersOf_eq_gathered (hnodup : (names bodies).Nodup) :
    membersOf bodies n = gathered bodies n := by
  induction bodies with
  | nil => rfl
  | cons a rest ih =>
      rw [names_cons, List.nodup_cons] at hnodup
      by_cases ha : a.name = n
      · subst ha
        simp [membersOf, find?_cons, gathered_eq_nil hnodup.1]
      · have := ih hnodup.2
        simpa [membersOf, find?_cons, ha] using this

theorem parentOf_append :
    parentOf (bases ++ parts) n =
      if n ∈ names bases then parentOf bases n else parentOf parts n := by
  by_cases h : n ∈ names bases
  · obtain ⟨b, hb⟩ := mem_names_iff.mp h
    simp [parentOf, find?_append, hb, h]
  · simp [parentOf, find?_append, find?_eq_none h, h]

/-! ## Extending -/

@[simp] theorem names_extend : names (extend bodies name ms) = names bodies := by
  simp only [names, extend, List.map_map]
  refine List.map_congr_left fun b _ => ?_
  by_cases h : b.name = name <;> simp [h]

theorem find?_extend :
    find? (extend bodies name ms) n =
      (find? bodies n).map fun b =>
        if b.name = name then { b with members := b.members ++ ms } else b := by
  simp only [find?, extend, List.find?_map]
  -- Extending changes no name, so the same body is found before and after.
  congr 2
  funext b
  by_cases h : b.name = name <;> simp [h]

theorem membersOf_extend (h : name ∈ names bodies) :
    membersOf (extend bodies name ms) n =
      membersOf bodies n ++ if name = n then ms else [] := by
  by_cases hn : n ∈ names bodies
  · obtain ⟨b, hb⟩ := mem_names_iff.mp hn
    obtain rfl := name_of_find? hb
    by_cases hb' : name = b.name
    · simp [membersOf, find?_extend, hb, hb']
    · simp [membersOf, find?_extend, hb, hb', Ne.symm hb']
  · have hne : name ≠ n := fun heq => hn (heq ▸ h)
    rw [membersOf_eq_nil hn, membersOf_eq_nil (by simpa using hn), if_neg hne, List.append_nil]

@[simp] theorem parentOf_extend : parentOf (extend bodies name ms) n = parentOf bodies n := by
  cases hb : find? bodies n with
  | none => simp [parentOf, find?_extend, hb]
  | some b => by_cases h : b.name = name <;> simp [parentOf, find?_extend, hb, h]

/-! ## Partial definitions -/

theorem addPartial_of_mem (h : part.name ∈ names bodies) :
    addPartial bodies part = extend bodies part.name part.members := by
  rw [mem_names_iff, ← Option.isSome_iff_exists] at h
  simp [addPartial, h]

theorem addPartial_of_notMem (h : part.name ∉ names bodies) :
    addPartial bodies part = bodies ++ [part] := by
  simp [addPartial, find?_eq_none h]

theorem names_addPartial :
    names (addPartial bodies part) =
      if part.name ∈ names bodies then names bodies else names bodies ++ [part.name] := by
  by_cases h : part.name ∈ names bodies
  · simp [addPartial_of_mem h, h]
  · simp [addPartial_of_notMem h, h]

/-- A partial definition adds its members under its own name, whether or not it finds a base. -/
theorem membersOf_addPartial :
    membersOf (addPartial bodies part) n =
      membersOf bodies n ++ if part.name = n then part.members else [] := by
  by_cases h : part.name ∈ names bodies
  · rw [addPartial_of_mem h, membersOf_extend h]
  · rw [addPartial_of_notMem h]
    by_cases hn : part.name = n
    · subst hn
      simp [membersOf, find?_append, find?_eq_none h, find?_cons]
    · simp [membersOf, find?_append, find?_cons, hn]

/-- The parent of a partial definition only counts under a name that has no base. -/
theorem parentOf_addPartial :
    parentOf (addPartial bodies part) n = parentOf (bodies ++ [part]) n := by
  by_cases h : part.name ∈ names bodies
  · rw [addPartial_of_mem h, parentOf_extend, parentOf_append]
    by_cases hn : n ∈ names bodies
    · rw [if_pos hn]
    · have hne : part.name ≠ n := fun heq => hn (heq ▸ h)
      rw [if_neg hn]
      simp [parentOf, find?_eq_none hn, find?_cons, hne]
  · rw [addPartial_of_notMem h]

theorem mem_names_addPartial :
    n ∈ names (addPartial bodies part) ↔ n ∈ names (bodies ++ [part]) := by
  rw [names_addPartial]
  by_cases h : part.name ∈ names bodies
  · have : n = part.name → n ∈ names bodies := fun heq => heq ▸ h
    simpa [h] using this
  · simp [h]

theorem withPartials_cons :
    withPartials bases (part :: parts) = withPartials (addPartial bases part) parts := rfl

/-- Bases come first, then the names that only partial definitions have, each where it first
stands. -/
theorem names_withPartials :
    names (withPartials bases parts) =
      names bases ++ ((names parts).filter fun n => n ∉ names bases).eraseDups := by
  induction parts generalizing bases with
  | nil => simp [withPartials]
  | cons part parts ih =>
      rw [withPartials_cons, ih, names_addPartial]
      by_cases h : part.name ∈ names bases
      · simp [h]
      · have hfilter : (names parts).filter (fun n => n ∉ names bases ++ [part.name]) =
            ((names parts).filter fun n => n ∉ names bases).filter fun n => !n == part.name := by
          rw [List.filter_filter]
          refine List.filter_congr fun n _ => ?_
          by_cases hn : n = part.name <;> simp [hn]
        simp only [h, if_false, names_cons, List.append_assoc, List.singleton_append]
        rw [List.filter_cons_of_pos (by simpa using h), List.eraseDups_cons, hfilter]

theorem mem_names_withPartials :
    n ∈ names (withPartials bases parts) ↔ n ∈ names bases ∨ n ∈ names parts := by
  rw [names_withPartials, List.mem_append, List.mem_eraseDups, List.mem_filter]
  by_cases h : n ∈ names bases <;> simp [h]

theorem nodup_names_withPartials (h : (names bases).Nodup) :
    (names (withPartials bases parts)).Nodup := by
  induction parts generalizing bases with
  | nil => exact h
  | cons part parts ih =>
      rw [withPartials_cons]
      apply ih
      rw [names_addPartial]
      by_cases hpart : part.name ∈ names bases
      · rwa [if_pos hpart]
      · rw [if_neg hpart]
        simpa using h.concat hpart

/-- No partial definition is lost, and those of a name follow its base in their order. -/
theorem membersOf_withPartials :
    membersOf (withPartials bases parts) n = membersOf bases n ++ gathered parts n := by
  induction parts generalizing bases with
  | nil => simp [withPartials]
  | cons part parts ih =>
      rw [withPartials_cons, ih, membersOf_addPartial, gathered_cons, List.append_assoc]

/-- The first definition of a name has the parent that counts, where bases come before partial
definitions. -/
theorem parentOf_withPartials :
    parentOf (withPartials bases parts) n = parentOf (bases ++ parts) n := by
  induction parts generalizing bases with
  | nil => simp [withPartials]
  | cons part parts ih =>
      rw [withPartials_cons, ih, List.append_cons bases part parts, parentOf_append,
        parentOf_append, parentOf_addPartial]
      simp only [mem_names_addPartial]

end IdlBindings.Body
