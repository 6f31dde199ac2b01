import IdlBindings.Proofs.Token.Reads

/-!
# What parsers take

The converse of reading: a parser that gives a result has taken tokens off the front of its stream,
and the result tells which they can be. Whatever it gives on one stream it gives on all streams with
tokens of the same kinds. Both are kept by sequencing, so they are shown together.

## Main definitions

* `Parser.Consumes`: every run of a parser takes tokens that fit its result
-/
namespace IdlBindings.Parser

/-- A run that gives `a` reads by kinds alone and takes tokens that are related to `a`. -/
def Consumes {α : Type} (p : Parser α) (Taken : List TokenKind → α → Prop) : Prop :=
  ∀ s a s', p s = .ok (a, s') →
    Reads p s.kinds a s'.kinds ∧ ∃ taken, s.kinds = taken ++ s'.kinds ∧ Taken taken a

namespace Consumes

variable {α β : Type} {p : Parser α} {f : α → Parser β} {kind : TokenKind} {mark : Punct}
  {Taken : List TokenKind → α → Prop} {Taken' : List TokenKind → β → Prop}

/-! ## Sequencing -/

theorem pure {a : α} (ha : Taken [] a) : Consumes (pure a) Taken := by
  intro s a' s' hrun
  obtain ⟨rfl, rfl⟩ := Prod.mk.inj (Except.ok.inj hrun)
  exact ⟨Reads.pure a s.kinds, [], rfl, ha⟩

theorem bind (hp : Consumes p Taken)
    (hf : ∀ taken a, Taken taken a → Consumes (f a) fun more => Taken' (taken ++ more)) :
    Consumes (p >>= f) Taken' := by
  intro s b s'' hrun
  obtain ⟨a, s', hps, hfs⟩ := run_bind_eq_ok_iff.mp hrun
  obtain ⟨hreads, taken, hkinds, htaken⟩ := hp s a s' hps
  obtain ⟨hmore, more, hkinds', hall⟩ := hf taken a htaken s' b s'' hfs
  refine ⟨hreads.bind hmore, taken ++ more, ?_, hall⟩
  rw [hkinds, hkinds', List.append_assoc]

theorem map {g : α → β} (hp : Consumes p Taken)
    (hg : ∀ taken a, Taken taken a → Taken' taken (g a)) : Consumes (g <$> p) Taken' := by
  rw [← bind_pure_comp]
  refine hp.bind fun taken a htaken => pure ?_
  rw [List.append_nil]
  exact hg taken a htaken

/-! ## Primitives -/

theorem fail (fault : SyntaxFault) : Consumes (fail fault) Taken := by
  intro s a s' hrun
  cases hrun

theorem peek : Consumes peek fun taken _ => taken = [] := by
  intro s found s' hrun
  obtain ⟨rfl, rfl⟩ := Prod.mk.inj (Except.ok.inj hrun)
  refine ⟨?_, [], rfl, rfl⟩
  rw [Reads.head?_kinds]
  exact Reads.peek s.kinds

theorem remaining : Consumes remaining fun taken _ => taken = [] := by
  intro s n s' hrun
  obtain ⟨rfl, rfl⟩ := Prod.mk.inj (Except.ok.inj hrun)
  have hreads := Reads.remaining s.kinds
  rw [TokenStream.kinds, List.length_map] at hreads
  exact ⟨hreads, [], rfl, rfl⟩

theorem advance : Consumes advance fun taken found => taken = found.toList := by
  intro s found s' hrun
  obtain ⟨rfl, rfl⟩ := Prod.mk.inj (Except.ok.inj hrun)
  rw [Reads.head?_kinds, Reads.kinds_drop]
  cases hkinds : s.kinds with
  | nil =>
      refine ⟨?_, [], rfl, rfl⟩
      intro s' hs'
      exact ⟨s'.drop, by rw [run_advance, Reads.head?_kinds, hs'], by rw [Reads.kinds_drop, hs']⟩
  | cons kind rest => exact ⟨Reads.advance kind rest, [kind], rfl, rfl⟩

theorem eat : Consumes (eat kind) fun taken found => taken = if found then [kind] else [] := by
  intro s found s' hrun
  rw [run_eat, Reads.head?_kinds] at hrun
  split at hrun
  · next hhead =>
      obtain ⟨rfl, rfl⟩ := Prod.mk.inj (Except.ok.inj hrun)
      obtain ⟨rest, hkinds⟩ := List.head?_eq_some_iff.mp hhead
      rw [Reads.kinds_drop, hkinds]
      exact ⟨Reads.eat_head kind rest, [kind], rfl, rfl⟩
  · next hhead =>
      obtain ⟨rfl, rfl⟩ := Prod.mk.inj (Except.ok.inj hrun)
      exact ⟨Reads.eat_other hhead, [], rfl, rfl⟩

/-- The two branches of looking for a token. -/
theorem eat_ite {yes no : Parser α} (hyes : Consumes yes fun more => Taken (kind :: more))
    (hno : Consumes no Taken) :
    Consumes (Parser.eat kind >>= fun found => if found = true then yes else no) Taken := by
  refine eat.bind ?_
  rintro taken found rfl
  cases found with
  | true => exact hyes
  | false => exact hno

theorem expectPunct : Consumes (expectPunct mark) fun taken _ => taken = [.punct mark] := by
  refine eat.bind ?_
  rintro taken found rfl
  cases found with
  | true => exact pure rfl
  | false => exact peek.bind fun taken found _ => fail _

theorem expectIdent : Consumes expectIdent fun taken _ => ∃ name, taken = [.ident name] := by
  intro s a s' hrun
  simp only [Parser.expectIdent, run_bind, run_peek] at hrun
  rw [Reads.head?_kinds] at hrun
  cases hkinds : s.kinds with
  | nil => simp [hkinds] at hrun
  | cons kind rest =>
      cases kind with
      | ident name =>
          simp only [hkinds, List.head?_cons, run_bind, run_advance, run_pure] at hrun
          obtain ⟨rfl, rfl⟩ := Prod.mk.inj (Except.ok.inj hrun)
          rw [Reads.kinds_drop, hkinds]
          exact ⟨Reads.expectIdent name rest, [.ident name], rfl, name, rfl⟩
      | _ => simp [hkinds] at hrun

/-- A name is that of the word that was taken. -/
theorem exists_word_of_expectIdent {s s' : TokenStream} {name : String}
    (hrun : Parser.expectIdent s = .ok (name, s')) :
    ∃ word, s.kinds = .ident word :: s'.kinds ∧ name = declaredName word := by
  obtain ⟨hreads, _, hkinds, word, rfl⟩ := expectIdent s name s' hrun
  rw [hkinds] at hreads
  exact ⟨word, hkinds, (hreads.unique (Reads.expectIdent word _)).1⟩

/-! ## Lists -/

/-- Items with commas between them, for a relation that goes on over a comma and an item. -/
theorem commaSeparated {item : Parser α} {Part : List TokenKind → Prop}
    (hitem : Consumes item fun taken _ => Part taken)
    (hcomma : ∀ first more, Part first → Part more → Part (first ++ .punct .comma :: more))
    (n : Nat) : Consumes (commaSeparated item n) fun taken _ => Part taken := by
  induction n with
  | zero =>
      refine hitem.bind fun taken a htaken => pure ?_
      rwa [List.append_nil]
  | succ n ih =>
      refine hitem.bind fun taken a htaken => ?_
      refine eat_ite (ih.bind fun more as hmore => pure ?_) (pure ?_)
      · rw [List.append_nil]
        exact hcomma taken more htaken hmore
      · rwa [List.append_nil]

end Consumes
end IdlBindings.Parser
