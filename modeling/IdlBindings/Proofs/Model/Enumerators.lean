import IdlBindings.Proofs.Model.Accepted
import Mathlib.Data.List.Induction

/-!
# Enumerators of an enumeration

The literals of an enumeration are taken one by one. A repetition is left out, and a new literal has
to have a new enumerator. So an enumeration is built exactly if different literals have different
enumerators, and a failure names two that do not.

## Main definitions

* `EnumValue.ofLiteral`: a literal with its enumerator
* `Collision`: two literals of a list with one enumerator
-/
namespace IdlBindings

/-- A literal with its enumerator. -/
def EnumValue.ofLiteral (literal : String) : EnumValue := ⟨literal, enumIdentifier literal⟩

/-- Two different literals of a list have the same enumerator. -/
structure Collision (literals : List String) (first second : String) : Prop where
  first_mem : first ∈ literals
  second_mem : second ∈ literals
  ne : first ≠ second
  ident_eq : enumIdentifier first = enumIdentifier second

variable {enum literal first second : String} {literals seen : List String}

theorem Collision.of_subset {more : List String} (h : Collision literals first second)
    (hsub : literals ⊆ more) : Collision more first second :=
  ⟨hsub h.first_mem, hsub h.second_mem, h.ne, h.ident_eq⟩

/-! ## One more literal -/

theorem addEnumValue_of_mem (hmem : literal ∈ seen) :
    addEnumValue enum (seen.map .ofLiteral) literal = .ok (seen.map .ofLiteral) := by
  have hany : (seen.map EnumValue.ofLiteral).any (fun v => v.literal == literal) = true := by
    simpa [EnumValue.ofLiteral] using hmem
  rw [addEnumValue, if_pos hany]

theorem addEnumValue_of_notMem (hmem : literal ∉ seen) :
    addEnumValue enum (seen.map .ofLiteral) literal =
      match seen.find? fun l => enumIdentifier l == enumIdentifier literal with
      | some first => .error (.enumeratorCollision enum first literal (enumIdentifier literal))
      | none => .ok (seen.map .ofLiteral ++ [.ofLiteral literal]) := by
  have hany : ¬(seen.map EnumValue.ofLiteral).any (fun v => v.literal == literal) = true := by
    simpa [EnumValue.ofLiteral] using hmem
  have hfind : (seen.map EnumValue.ofLiteral).find? (fun v => v.ident == enumIdentifier literal) =
      (seen.find? fun l => enumIdentifier l == enumIdentifier literal).map .ofLiteral := by
    rw [List.find?_map]
    rfl
  rw [addEnumValue, if_neg hany]
  simp only [hfind]
  cases seen.find? fun l => enumIdentifier l == enumIdentifier literal <;> rfl

/-! ## All literals -/

theorem eraseDups_concat (literals : List String) (literal : String) :
    (literals ++ [literal]).eraseDups =
      if literal ∈ literals then literals.eraseDups else literals.eraseDups ++ [literal] := by
  by_cases hmem : literal ∈ literals <;>
    simp [List.eraseDups_append, List.removeAll, hmem, List.eraseDups_cons]

/-- A literal that collides with none before it adds no collision. -/
theorem not_collision_concat (hfree : ∀ first second, ¬Collision literals first second)
    (hliteral : ∀ l ∈ literals, enumIdentifier l ≠ enumIdentifier literal) (first second : String) :
    ¬Collision (literals ++ [literal]) first second := by
  intro h
  rcases List.mem_append.mp h.first_mem with hfirst | hfirst <;>
    rcases List.mem_append.mp h.second_mem with hsecond | hsecond
  · exact hfree first second ⟨hfirst, hsecond, h.ne, h.ident_eq⟩
  · rw [List.mem_singleton] at hsecond
    exact hliteral first hfirst (hsecond ▸ h.ident_eq)
  · rw [List.mem_singleton] at hfirst
    exact hliteral second hsecond (hfirst ▸ h.ident_eq.symm)
  · rw [List.mem_singleton] at hfirst hsecond
    exact h.ne (hfirst.trans hsecond.symm)

/-- The values of an enumeration are its literals without repetitions, or two of them collide. -/
theorem enumValues_cases (enum : String) (literals : List String) :
    (enumValues enum literals = .ok (literals.eraseDups.map .ofLiteral) ∧
        ∀ first second, ¬Collision literals first second) ∨
      ∃ first second, Collision literals first second ∧ enumValues enum literals =
        .error (.enumeratorCollision enum first second (enumIdentifier second)) := by
  induction literals using List.reverseRecOn with
  | nil =>
      refine .inl ⟨rfl, ?_⟩
      rintro first second ⟨hfirst, _⟩
      cases hfirst
  | append_singleton literals literal ih =>
      have hstep : enumValues enum (literals ++ [literal]) =
          enumValues enum literals >>= fun values => addEnumValue enum values literal := by
        simp [enumValues, List.foldlM_append]
      rcases ih with ⟨hvalues, hfree⟩ | ⟨first, second, hcollision, hvalues⟩
      · have hadd : enumValues enum (literals ++ [literal]) =
            addEnumValue enum (literals.eraseDups.map .ofLiteral) literal := by
          rw [hstep, hvalues]
          rfl
        rw [hadd, eraseDups_concat]
        by_cases hmem : literal ∈ literals
        · have hsub : literals ++ [literal] ⊆ literals := by simpa using hmem
          refine .inl ⟨?_, fun first second h => hfree first second (h.of_subset hsub)⟩
          rw [if_pos hmem, addEnumValue_of_mem (List.mem_eraseDups.mpr hmem)]
        · rw [if_neg hmem, addEnumValue_of_notMem (mt List.mem_eraseDups.mp hmem)]
          cases hfind : literals.eraseDups.find? fun l =>
              enumIdentifier l == enumIdentifier literal with
          | some first =>
              have hfirst : first ∈ literals :=
                List.mem_eraseDups.mp (List.mem_of_find?_eq_some hfind)
              have hident : enumIdentifier first = enumIdentifier literal := by
                simpa using List.find?_some hfind
              refine .inr ⟨first, literal, ⟨?_, ?_, ?_, hident⟩, rfl⟩
              · exact List.mem_append_left _ hfirst
              · simp
              · rintro rfl
                exact hmem hfirst
          | none =>
              have hnew : ∀ l ∈ literals, enumIdentifier l ≠ enumIdentifier literal := by
                simpa [List.find?_eq_none] using hfind
              exact .inl ⟨by simp, not_collision_concat hfree hnew⟩
      · refine .inr ⟨first, second, hcollision.of_subset (List.subset_append_left _ _), ?_⟩
        rw [hstep, hvalues]
        rfl

/-- An enumeration fails only where two of its literals collide. -/
theorem collision_of_toEnumeration {d : EnumDef} {fault : ModelFault}
    (h : d.toEnumeration = .error fault) : ∃ first second, Collision d.values first second ∧
      fault = .enumeratorCollision d.name first second (enumIdentifier second) := by
  rcases enumValues_cases d.name d.values with ⟨hvalues, _⟩ | ⟨first, second, hcollision, hvalues⟩
  · simp [EnumDef.toEnumeration, hvalues, bind, Except.bind, pure, Except.pure] at h
  · refine ⟨first, second, hcollision, ?_⟩
    simpa [EnumDef.toEnumeration, hvalues, bind, Except.bind, eq_comm] using h

/-- No two literals of an enumeration collide once it is built. -/
theorem not_collision_of_toEnumeration {d : EnumDef} {e : Enumeration}
    (h : d.toEnumeration = .ok e) : ¬Collision d.values first second := by
  rcases enumValues_cases d.name d.values with ⟨_, hfree⟩ | ⟨_, _, _, hvalues⟩
  · exact hfree first second
  · simp [EnumDef.toEnumeration, hvalues, bind, Except.bind] at h

end IdlBindings
