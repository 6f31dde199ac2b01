import IdlBindings.Proofs.Binding.Runs

/-!
# Scopes of a callback

What a step declares is known in the rest of its block and in the blocks inside that rest, and no
longer after the block has ended. A choice comes back with nothing new: what its branches declare
stays in them.

## Main definitions

* `Place`: a step, or the test of a choice
* `Block.outer`: the steps of a block that stand outside of its choices
* `Block.Everywhere`: a condition on every place of a block and the steps in scope there
-/
namespace IdlBindings

/-- What stands at a place of a block. -/
inductive Place where
  | step (action : Action)
  | test (test : Test)

namespace Block

/-- The steps of a block that stand outside of its choices, hence in scope of what follows it. -/
def outer : Block → List Action
  | done => []
  | act a rest => a :: rest.outer
  | choose _ _ _ rest => rest.outer

/-- The condition `ok` holds at every place of a block. It is told the steps in scope at that place:
those before it in the block itself and in the blocks around it. -/
def Everywhere (ok : List Action → Place → Prop) : List Action → Block → Prop
  | _, done => True
  | scope, act a rest => ok scope (.step a) ∧ rest.Everywhere ok (scope ++ [a])
  | scope, choose test yes no rest =>
    ok scope (.test test) ∧ yes.Everywhere ok scope ∧ no.Everywhere ok scope ∧
      rest.Everywhere ok scope

variable {ok : List Action → Place → Prop} {scope : List Action}

@[simp] theorem outer_ofActions (as : List Action) : (ofActions as).outer = as := by
  induction as with
  | nil => rfl
  | cons a as ih => rw [ofActions, outer, ih]

@[simp] theorem outer_choice (test : Test) (yes no : Block) : (choice test yes no).outer = [] := rfl

@[simp] theorem outer_append (a b : Block) : (a.append b).outer = a.outer ++ b.outer := by
  induction a with
  | done => rfl
  | act x rest ih => simp [append, outer, ih]
  | choose test yes no rest _ _ ih => simp [append, outer, ih]

@[simp] theorem everywhere_done : done.Everywhere ok scope := trivial

@[simp] theorem everywhere_act (a : Action) (rest : Block) :
    (act a rest).Everywhere ok scope ↔
      ok scope (.step a) ∧ rest.Everywhere ok (scope ++ [a]) := Iff.rfl

@[simp] theorem everywhere_append (a b : Block) :
    (a.append b).Everywhere ok scope ↔
      a.Everywhere ok scope ∧ b.Everywhere ok (scope ++ a.outer) := by
  induction a generalizing scope with
  | done => simp [append, outer]
  | act x rest ih => simp [append, outer, ih, and_assoc]
  | choose test yes no rest _ _ ih => simp [append, outer, Everywhere, ih, and_assoc]

theorem everywhere_ofActions_append (as bs : List Action) :
    (ofActions (as ++ bs)).Everywhere ok scope ↔
      (ofActions as).Everywhere ok scope ∧ (ofActions bs).Everywhere ok (scope ++ as) := by
  induction as generalizing scope with
  | nil => simp [ofActions]
  | cons a as ih => simp [ofActions, ih, and_assoc]

/-- A fact about the scope that no step of a block takes away holds at every place. -/
theorem everywhere_of_invariant (inv : List Action → Prop) {b : Block} (hscope : inv scope)
    (hstep : ∀ a ∈ b.actions, ∀ scope, inv scope → ok scope (.step a) ∧ inv (scope ++ [a]))
    (htest : ∀ test scope, inv scope → ok scope (.test test)) : b.Everywhere ok scope := by
  induction b generalizing scope with
  | done => trivial
  | act a rest ih =>
      rw [actions, List.forall_mem_cons] at hstep
      obtain ⟨hok, hinv⟩ := hstep.1 scope hscope
      exact ⟨hok, ih hinv hstep.2⟩
  | choose test yes no rest ihyes ihno ihrest =>
      simp only [actions, List.forall_mem_append] at hstep
      obtain ⟨⟨hyes, hno⟩, hrest⟩ := hstep
      exact ⟨htest test scope hscope, ihyes hscope hyes, ihno hscope hno, ihrest hscope hrest⟩

end Block
end IdlBindings
