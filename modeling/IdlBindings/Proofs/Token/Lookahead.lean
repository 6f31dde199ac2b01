import IdlBindings.Proofs.Token.Consumes

/-!
# How far parsers look ahead

The parsers of the grammar decide by the next token alone. What such a parser takes from one stream
it takes from every stream that starts with the same tokens, provided that the first token behind
them is the same as well. A parser that ends by reading a mark does not even look at that one, so it
reads the same before everything.

The loops of the grammar start from the number of tokens still to be read, which depends on all of
the input. A larger bound changes nothing, and so a loop is no exception.

## Main definitions

* `Parser.Predictive`: a parser that looks at one token behind those it takes
* `Parser.Delimited`: a parser that looks at none
* `Parser.BoundFree`: a loop for which no bound is too large
-/
namespace IdlBindings.Parser

variable {α β : Type}

/-- What a run takes is read with the same result before every rest with the same first token. -/
def Predictive (p : Parser α) : Prop :=
  ∀ s a s', p s = .ok (a, s') →
    ∃ taken, s.kinds = taken ++ s'.kinds ∧
      ∀ rest, rest.head? = s'.kinds.head? → Reads p (taken ++ rest) a rest

/-- What a run takes, which is at least one token, is read with the same result before every
rest. -/
def Delimited (p : Parser α) : Prop :=
  ∀ s a s', p s = .ok (a, s') →
    ∃ taken, taken ≠ [] ∧ s.kinds = taken ++ s'.kinds ∧ ∀ rest, Reads p (taken ++ rest) a rest

/-- The parsers do the same on every stream of at most `k` tokens. -/
def AgreeUpTo (k : Nat) (p q : Parser α) : Prop :=
  ∀ s : TokenStream, s.tokens.length ≤ k → p s = q s

/-- A larger bound changes nothing where the smaller one is at least the number of tokens. -/
def BoundFree (q : Nat → Parser α) : Prop := ∀ n m, n ≤ m → AgreeUpTo n (q n) (q m)

variable {p q : Parser α} {f g : α → Parser β} {kind : TokenKind} {mark : Punct} {k : Nat}

theorem length_kinds (s : TokenStream) : s.kinds.length = s.tokens.length := List.length_map ..

/-! ## One token ahead -/

namespace Predictive

theorem length_le (hp : Predictive p) {s s' : TokenStream} {a : α} (hrun : p s = .ok (a, s')) :
    s'.tokens.length ≤ s.tokens.length := by
  obtain ⟨taken, hkinds, _⟩ := hp s a s' hrun
  have hlength := congrArg List.length hkinds
  rw [List.length_append, length_kinds, length_kinds] at hlength
  omega

theorem pure (a : α) : Predictive (pure a) := by
  intro s a' s' hrun
  obtain ⟨rfl, rfl⟩ := Prod.mk.inj (Except.ok.inj hrun)
  exact ⟨[], rfl, fun rest _ => Reads.pure a rest⟩

theorem fail (fault : SyntaxFault) : Predictive (fail fault : Parser α) := by
  intro s a s' hrun
  cases hrun

theorem bind (hp : Predictive p) (hf : ∀ a, Predictive (f a)) : Predictive (p >>= f) := by
  intro s b s'' hrun
  obtain ⟨a, s', hps, hfs⟩ := run_bind_eq_ok_iff.mp hrun
  obtain ⟨taken, hkinds, hreads⟩ := hp s a s' hps
  obtain ⟨more, hkinds', hmore⟩ := hf a s' b s'' hfs
  refine ⟨taken ++ more, by rw [hkinds, hkinds', List.append_assoc], fun rest hrest => ?_⟩
  have hhead : (more ++ rest).head? = s'.kinds.head? := by
    rw [hkinds', List.head?_append, List.head?_append, hrest]
  rw [List.append_assoc]
  exact (hreads _ hhead).bind (hmore rest hrest)

theorem map {g : α → β} (hp : Predictive p) : Predictive (g <$> p) := by
  rw [← bind_pure_comp]
  exact hp.bind fun a => pure (g a)

theorem peek : Predictive peek := by
  intro s found s' hrun
  obtain ⟨rfl, rfl⟩ := Prod.mk.inj (Except.ok.inj hrun)
  refine ⟨[], rfl, fun rest hrest => ?_⟩
  rw [Reads.head?_kinds, ← hrest]
  exact Reads.peek rest

theorem advance : Predictive advance := by
  intro s found s' hrun
  obtain ⟨rfl, rfl⟩ := Prod.mk.inj (Except.ok.inj hrun)
  rw [Reads.head?_kinds, Reads.kinds_drop]
  cases hkinds : s.kinds with
  | nil =>
      refine ⟨[], rfl, fun rest hrest => ?_⟩
      obtain rfl : rest = [] := List.head?_eq_none_iff.mp hrest
      intro t ht
      exact ⟨t.drop, by rw [run_advance, Reads.head?_kinds, ht]; rfl,
        by rw [Reads.kinds_drop, ht]; rfl⟩
  | cons kind rest => exact ⟨[kind], rfl, fun rest _ => Reads.advance kind rest⟩

theorem eat : Predictive (eat kind) := by
  intro s found s' hrun
  rw [run_eat, Reads.head?_kinds] at hrun
  split at hrun
  · next hhead =>
      obtain ⟨rfl, rfl⟩ := Prod.mk.inj (Except.ok.inj hrun)
      obtain ⟨rest, hkinds⟩ := List.head?_eq_some_iff.mp hhead
      exact ⟨[kind], by rw [Reads.kinds_drop, hkinds]; rfl, fun rest _ => Reads.eat_head kind rest⟩
  · next hhead =>
      obtain ⟨rfl, rfl⟩ := Prod.mk.inj (Except.ok.inj hrun)
      refine ⟨[], rfl, fun rest hrest => Reads.eat_other ?_⟩
      rwa [List.nil_append, hrest]

/-- The two branches of looking for a token. -/
theorem eat_ite {yes no : Parser α} (hyes : Predictive yes) (hno : Predictive no) :
    Predictive (Parser.eat kind >>= fun found => if found = true then yes else no) := by
  refine eat.bind fun found => ?_
  cases found with
  | true => exact hyes
  | false => exact hno

/-- Items with commas between them, for any bound. -/
theorem commaSeparated {item : Parser α} (hitem : Predictive item) (n : Nat) :
    Predictive (commaSeparated item n) := by
  induction n with
  | zero => exact hitem.bind fun a => pure [a]
  | succ n ih => exact hitem.bind fun a => eat_ite (ih.bind fun as => pure (a :: as)) (pure [a])

end Predictive

/-! ## No token ahead -/

namespace Delimited

theorem predictive (hp : Delimited p) : Predictive p := by
  intro s a s' hrun
  obtain ⟨taken, _, hkinds, hreads⟩ := hp s a s' hrun
  exact ⟨taken, hkinds, fun rest _ => hreads rest⟩

/-- Tokens that are read as a whole are read so before every rest. -/
theorem reads_append (hp : Delimited p) {kinds : List TokenKind} {a : α}
    (h : Reads p kinds a []) : kinds ≠ [] ∧ ∀ rest, Reads p (kinds ++ rest) a rest := by
  obtain ⟨s, rfl⟩ := exists_kinds_eq kinds
  obtain ⟨s', hrun, hs'⟩ := h s rfl
  obtain ⟨taken, hne, hkinds, hreads⟩ := hp s a s' hrun
  rw [hkinds, hs', List.append_nil]
  exact ⟨hne, hreads⟩

theorem fail (fault : SyntaxFault) : Delimited (fail fault : Parser α) := by
  intro s a s' hrun
  cases hrun

/-- The token that a parser looks at is taken by the one after it. -/
theorem bind (hp : Predictive p) (hf : ∀ a, Delimited (f a)) : Delimited (p >>= f) := by
  intro s b s'' hrun
  obtain ⟨a, s', hps, hfs⟩ := run_bind_eq_ok_iff.mp hrun
  obtain ⟨taken, hkinds, hreads⟩ := hp s a s' hps
  obtain ⟨more, hne, hkinds', hmore⟩ := hf a s' b s'' hfs
  refine ⟨taken ++ more, by simp [hne], by rw [hkinds, hkinds', List.append_assoc], ?_⟩
  intro rest
  have hhead : (more ++ rest).head? = s'.kinds.head? := by
    rw [hkinds', List.head?_append_of_ne_nil more hne, List.head?_append_of_ne_nil more hne]
  rw [List.append_assoc]
  exact (hreads _ hhead).bind (hmore rest)

theorem map {g : α → β} (hp : Delimited p) : Delimited (g <$> p) := by
  intro s b s' hrun
  rw [← bind_pure_comp] at hrun
  obtain ⟨a, s'', hps, hpure⟩ := run_bind_eq_ok_iff.mp hrun
  obtain ⟨rfl, rfl⟩ := Prod.mk.inj (Except.ok.inj hpure)
  obtain ⟨taken, hne, hkinds, hreads⟩ := hp s a s'' hps
  exact ⟨taken, hne, hkinds, fun rest => (hreads rest).map⟩

/-- The two branches of looking for a token. -/
theorem eat_ite {yes no : Parser α} (hyes : Delimited yes) (hno : Delimited no) :
    Delimited (Parser.eat kind >>= fun found => if found = true then yes else no) := by
  refine bind Predictive.eat fun found => ?_
  cases found with
  | true => exact hyes
  | false => exact hno

theorem expectPunct : Delimited (expectPunct mark) := by
  intro s u s' hrun
  obtain ⟨_, _, hkinds, rfl⟩ := Consumes.expectPunct s u s' hrun
  exact ⟨[.punct mark], by simp, hkinds, Reads.expectPunct mark⟩

/-- A mark at the end, and the result behind it. -/
theorem expectPunct_pure (mark : Punct) (a : α) :
    Delimited (Parser.expectPunct mark >>= fun _ => pure a) := by
  rw [bind_pure_comp]
  exact expectPunct.map

theorem expectIdent : Delimited expectIdent := by
  intro s name s' hrun
  obtain ⟨word, hkinds, rfl⟩ := Consumes.exists_word_of_expectIdent hrun
  exact ⟨[.ident word], by simp, hkinds, Reads.expectIdent word⟩

end Delimited

/-! ## The bounds of loops -/

namespace AgreeUpTo

theorem rfl : AgreeUpTo k p p := fun _ _ => Eq.refl _

theorem bind (hpq : AgreeUpTo k p q) (hq : Predictive q) (hfg : ∀ a, AgreeUpTo k (f a) (g a)) :
    AgreeUpTo k (p >>= f) (q >>= g) := by
  intro s hs
  rw [run_bind, run_bind, hpq s hs]
  cases hqs : q s with
  | error e => exact Eq.refl _
  | ok result =>
      have hlength := hq.length_le hqs
      exact hfg result.1 result.2 (Nat.le_trans hlength hs)

/-- A token that is there leaves one token less for what follows. -/
theorem eat_ite {yes yes' no no' : Parser α} (hyes : AgreeUpTo k yes yes')
    (hno : AgreeUpTo (k + 1) no no') :
    AgreeUpTo (k + 1) (Parser.eat kind >>= fun found => if found = true then yes else no)
      (Parser.eat kind >>= fun found => if found = true then yes' else no') := by
  intro s hs
  rw [run_bind, run_bind, run_eat]
  split
  · next found s' hfound =>
      split at hfound
      · obtain ⟨rfl, rfl⟩ := Prod.mk.inj (Except.ok.inj hfound)
        have hdrop : s.drop.tokens.length ≤ k := by
          simp only [TokenStream.drop, List.length_tail]
          omega
        exact hyes s.drop hdrop
      · obtain ⟨rfl, rfl⟩ := Prod.mk.inj (Except.ok.inj hfound)
        exact hno s hs
  · exact Eq.refl _

/-- At the end of the input no token is found. -/
theorem eat_end {yes no : Parser α} :
    AgreeUpTo 0 no (Parser.eat kind >>= fun found => if found = true then yes else no) := by
  intro s hs
  have hkinds : s.kinds = [] := by
    rw [← List.length_eq_zero_iff, length_kinds]
    omega
  rw [run_bind, run_eat, if_neg (by simp [Reads.head?_kinds, hkinds])]
  exact Eq.refl _

end AgreeUpTo

theorem BoundFree.commaSeparated {item : Parser α} (hitem : Predictive item) :
    BoundFree (commaSeparated item) := by
  intro n
  induction n with
  | zero =>
      intro m _
      cases m with
      | zero => exact .rfl
      | succ m => exact AgreeUpTo.rfl.bind hitem fun a => AgreeUpTo.eat_end
  | succ n ih =>
      intro m hm
      cases m with
      | zero => omega
      | succ m =>
          have hmore := ih m (Nat.le_of_succ_le_succ hm)
          refine AgreeUpTo.rfl.bind hitem fun a => AgreeUpTo.eat_ite ?_ .rfl
          exact hmore.bind (hitem.commaSeparated m) fun as => .rfl

/-- A loop looks one token ahead if its rounds do and its bound does not matter. -/
theorem Predictive.remaining {loop : Nat → Parser α} (hloop : ∀ n, Predictive (loop n))
    (hbound : BoundFree loop) : Predictive (remaining >>= loop) := by
  intro s a s' hrun
  replace hrun : loop s.tokens.length s = .ok (a, s') := hrun
  obtain ⟨taken, hkinds, _⟩ := hloop _ s a s' hrun
  refine ⟨taken, hkinds, fun rest hrest => (Reads.remaining _).bind ?_⟩
  -- Both streams are read with a bound that is large enough for either of them.
  have hmax := Nat.le_max_left s.tokens.length (taken ++ rest).length
  have hmax' := Nat.le_max_right s.tokens.length (taken ++ rest).length
  have hrun' := hbound _ _ hmax s (Nat.le_refl _)
  rw [hrun] at hrun'
  obtain ⟨taken', hkinds', hreads⟩ := hloop _ s a s' hrun'.symm
  obtain rfl : taken = taken' := List.append_cancel_right (hkinds.symm.trans hkinds')
  intro t ht
  obtain ⟨t', hrunt, ht'⟩ := hreads rest hrest t ht
  refine ⟨t', ?_, ht'⟩
  rw [hbound _ _ hmax' t (by rw [← length_kinds, ht]), hrunt]

end IdlBindings.Parser
