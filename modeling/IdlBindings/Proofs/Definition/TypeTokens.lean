import IdlBindings.Proofs.Definition.PartParser
import IdlBindings.Proofs.Token.Consumes

/-!
# The tokens of a type

The converse of reading a type: whatever the parser takes for a type spells the type, once extended
attributes are left out. Attributes stand only where a type starts, so without them no two words of
a spelling come together that were apart.

## Main definitions

* `withoutAttrs`: tokens without extended attributes
* `Keeps`: what is left of some tokens without extended attributes, whatever follows them
-/
namespace IdlBindings

open IdlBindings.Parser

/-! ## Tokens outside extended attributes -/

/-- The tokens outside extended attributes. The state tells whether a list of attributes is open
and inside how many parentheses, where a bracket does not close it. -/
def outsideAttrs : Option Nat → List TokenKind → List TokenKind
  | _, [] => []
  | none, kind :: kinds =>
    if kind = .punct .openBracket then outsideAttrs (some 0) kinds
    else kind :: outsideAttrs none kinds
  | some depth, kind :: kinds =>
    if depth = 0 ∧ kind = .punct .closeBracket then outsideAttrs none kinds
    else outsideAttrs (some (ExtAttr.innerDepth depth kind)) kinds

/-- The tokens without all lists of extended attributes. -/
def withoutAttrs (kinds : List TokenKind) : List TokenKind := outsideAttrs none kinds

theorem outsideAttrs_sublist (state : Option Nat) (kinds : List TokenKind) :
    (outsideAttrs state kinds).Sublist kinds := by
  fun_induction outsideAttrs state kinds with
  | case1 => exact .slnil
  | case2 kinds ih => exact ih.cons _
  | case3 kind kinds _ ih => exact ih.cons_cons kind
  | case4 depth kind kinds _ ih => exact ih.cons kind
  | case5 depth kind kinds _ ih => exact ih.cons kind

theorem areWritable_withoutAttrs {kinds : List TokenKind}
    (hkinds : TokenKind.areWritable kinds = true) :
    TokenKind.areWritable (withoutAttrs kinds) = true := by
  rw [TokenKind.areWritable, List.all_eq_true] at hkinds ⊢
  intro kind hkind
  exact hkinds kind ((outsideAttrs_sublist none kinds).subset hkind)

/-- Of the tokens `taken` those in `kept` are outside, whatever follows. -/
def Keeps (before : Option Nat) (taken kept : List TokenKind) (after : Option Nat) : Prop :=
  ∀ rest, outsideAttrs before (taken ++ rest) = kept ++ outsideAttrs after rest

namespace Keeps

variable {before between after : Option Nat} {taken more kept kept' : List TokenKind}
  {kind : TokenKind}

theorem nil (state : Option Nat) : Keeps state [] [] state := fun _ => rfl

theorem append (h : Keeps before taken kept between) (h' : Keeps between more kept' after) :
    Keeps before (taken ++ more) (kept ++ kept') after := by
  intro rest
  rw [List.append_assoc, h, h', List.append_assoc]

theorem outside (hkind : kind ≠ .punct .openBracket) : Keeps none [kind] [kind] none := by
  intro rest
  rw [List.singleton_append, outsideAttrs, if_neg hkind]
  rfl

theorem opening : Keeps none [.punct .openBracket] [] (some 0) := fun _ => rfl

theorem closing : Keeps (some 0) [.punct .closeBracket] [] none := fun _ => rfl

theorem inside {depth : Nat} (hkind : ¬(depth = 0 ∧ kind = .punct .closeBracket)) :
    Keeps (some depth) [kind] [] (some (ExtAttr.innerDepth depth kind)) := by
  intro rest
  rw [List.singleton_append, outsideAttrs, if_neg hkind]
  rfl

theorem words (sizes : List String) :
    Keeps none (sizes.map .ident) (sizes.map .ident) none := by
  induction sizes with
  | nil => exact nil none
  | cons size sizes ih => exact (outside (by simp)).append ih

theorem name (n : TypeWords) : Keeps none n.tokens n.tokens none :=
  (outside (by simp)).append (words n.sizes)

theorem withoutAttrs_eq (h : Keeps none taken kept none) : withoutAttrs taken = kept := by
  have hnil := h []
  rwa [List.append_nil, outsideAttrs, List.append_nil] at hnil

end Keeps

/-! ## What the parsers take -/

namespace ExtAttr

/-- All that a right-hand side takes is inside the attribute. -/
theorem takes_of_valueTokens {depth : Nat} {tokens tokens' : List Token} {taken : List TokenKind}
    (h : valueTokens depth tokens = some (taken, tokens')) :
    Takes depth (tokens.map Token.kind) taken (tokens'.map Token.kind) ∧
      tokens.map Token.kind = taken ++ tokens'.map Token.kind ∧
      Keeps (some depth) taken [] (some 0) := by
  induction tokens generalizing depth taken with
  | nil => simp [valueTokens] at h
  | cons t ts ih =>
      by_cases hstop : depth = 0 ∧ (t.kind = .punct .comma ∨ t.kind = .punct .closeBracket)
      · obtain ⟨rfl, hkind⟩ := hstop
        rw [valueTokens, if_pos ⟨rfl, hkind⟩] at h
        obtain ⟨rfl, rfl⟩ := Prod.mk.inj (Option.some.inj h)
        exact ⟨Takes.stop hkind, rfl, .nil _⟩
      · rw [valueTokens_of_not_stop ts hstop, Option.map_eq_some_iff] at h
        obtain ⟨result, hrest, hresult⟩ := h
        obtain ⟨rfl, rfl⟩ := Prod.mk.inj hresult
        obtain ⟨htakes, hkinds, hkeeps⟩ := ih hrest
        refine ⟨Takes.step hstop htakes, ?_, ?_⟩
        · rw [List.map_cons, hkinds, List.cons_append]
        · exact (Keeps.inside fun hclose => hstop ⟨hclose.1, .inr hclose.2⟩).append hkeeps

theorem consumes_parseValue :
    Consumes parseValue fun taken _ => Keeps (some 0) taken [] (some 0) := by
  intro s value s' hrun
  rw [parseValue] at hrun
  split at hrun
  · next kinds tokens' hvalue =>
      obtain ⟨rfl, rfl⟩ := Prod.mk.inj (Except.ok.inj hrun)
      obtain ⟨htakes, hkinds, hkeeps⟩ := takes_of_valueTokens hvalue
      refine ⟨?_, kinds, hkinds, hkeeps⟩
      intro s' hs'
      obtain ⟨tokens'', hvalue', hkinds'⟩ := htakes s'.tokens hs'
      exact ⟨{ s' with tokens := tokens'' }, by rw [parseValue, hvalue'], hkinds'⟩
  · cases hrun

theorem consumes_parseOne :
    Consumes parseOne fun taken _ => Keeps (some 0) taken [] (some 0) := by
  refine Consumes.expectIdent.bind ?_
  rintro taken name ⟨word, rfl⟩
  have hword : Keeps (some 0) [.ident word] [] (some 0) := Keeps.inside (by simp)
  have hequals : Keeps (some 0) [.punct .equals] [] (some 0) := Keeps.inside (by simp)
  refine Consumes.eat_ite (consumes_parseValue.bind fun value _ hvalue => Consumes.pure ?_)
    (Consumes.peek.bind ?_)
  · simpa using hword.append (hequals.append hvalue)
  · rintro taken found rfl
    split
    · refine consumes_parseValue.bind fun value _ hvalue => Consumes.pure ?_
      simpa using hword.append hvalue
    · exact Consumes.pure hword

theorem consumes_parseList : Consumes parseList fun taken _ => Keeps none taken [] none := by
  have hcomma : Keeps (some 0) [.punct .comma] [] (some 0) := Keeps.inside (by simp)
  refine Consumes.eat_ite (Consumes.remaining.bind ?_) (Consumes.pure (Keeps.nil none))
  rintro taken n rfl
  have hattrs := Consumes.commaSeparated consumes_parseOne
    (fun first more hfirst hmore => hfirst.append (hcomma.append hmore)) n
  refine hattrs.bind fun inner _ hinner => Consumes.expectPunct.bind ?_
  rintro taken _ rfl
  refine Consumes.pure ?_
  simpa using Keeps.opening.append (hinner.append Keeps.closing)

end ExtAttr

namespace IdlType

theorem sizeWords_spec (tokens : List Token) :
    tokens.map Token.kind =
        (sizeWords tokens).1.map .ident ++ (sizeWords tokens).2.map Token.kind ∧
      (∀ size ∈ (sizeWords tokens).1, isSizeWord size = true) ∧
      EndsSizes ((sizeWords tokens).2.map Token.kind).head? := by
  fun_induction sizeWords tokens with
  | case1 => simp [EndsSizes]
  | case2 t ts word hkind hword words rest hrest ih =>
      rw [hrest] at ih
      obtain ⟨hkinds, hsizes, hend⟩ := ih
      exact ⟨by simp [hkind, hkinds], List.forall_mem_cons.mpr ⟨hword, hsizes⟩, hend⟩
  | case3 t ts word hkind hword => simpa [EndsSizes, hkind] using hword
  | case4 t ts hkind =>
      refine ⟨by simp, by simp, fun word hword => ?_⟩
      exact absurd (by simpa using hword) (hkind word)

theorem consumes_parseName (word : String) :
    Consumes (parseName word) fun taken name =>
      ∃ n : TypeWords, .ident word :: taken = n.tokens ∧ name = n.text := by
  intro s name s' hrun
  obtain ⟨hkinds, hsizes, hend⟩ := sizeWords_spec s.tokens
  by_cases htakes : takesSizeWords word = true
  · let n : TypeWords := ⟨word, (sizeWords s.tokens).1, hsizes, fun _ => htakes⟩
    simp only [parseName, htakes, if_true] at hrun
    obtain ⟨rfl, rfl⟩ := Prod.mk.inj (Except.ok.inj hrun)
    refine ⟨?_, n.sizes.map .ident, hkinds, n, rfl, rfl⟩
    have hreads := n.reads_sizes hend
    rwa [← hkinds] at hreads
  · let n : TypeWords := ⟨word, [], by simp, by simp⟩
    simp only [parseName, htakes] at hrun
    obtain ⟨rfl, rfl⟩ := Prod.mk.inj (Except.ok.inj hrun)
    refine ⟨?_, [], rfl, n, rfl, rfl⟩
    intro s' hs'
    exact ⟨s', by simp [parseName, htakes], hs'⟩

/-- What a type is read from, apart from attributes, spells it. -/
def Spells (taken : List TokenKind) (t : IdlType) : Prop :=
  ∃ kinds, TypeSpelling kinds t ∧ Keeps none taken kinds none

/-- What further types are read from. -/
def SpellsMore (separator : TokenKind) (taken : List TokenKind) (ts : List IdlType) : Prop :=
  ∃ parts : List TypePart, ts = parts.map TypePart.type ∧
    (∀ part ∈ parts, TypeSpelling part.tokens part.type) ∧
    Keeps none taken (TypePart.moreTokens separator parts) none

/-- The question mark at the end of a type, after what comes before it. -/
theorem consumes_question {t : IdlType} {taken kinds : List TokenKind}
    (hspelling : ∀ nullable,
      TypeSpelling (kinds ++ questionTokens nullable) (t.nullableIf nullable))
    (hkeeps : Keeps none taken kinds none) :
    Consumes (do if ← eatPunct .question then return t.nullable else return t) fun more t' =>
      Spells (taken ++ more) t' := by
  have hquestion : Keeps none [.punct .question] [.punct .question] none := .outside (by simp)
  exact Consumes.eat_ite (Consumes.pure ⟨_, hspelling true, hkeeps.append hquestion⟩)
    (Consumes.pure ⟨_, hspelling false, hkeeps.append (.nil none)⟩)

theorem consumes_parseMore {n : Nat} (hparse : ∀ m < n, Consumes (parseWith m) Spells)
    {separator : TokenKind} (hseparator : separator ≠ .punct .openBracket) :
    Consumes (parseMore separator n) (SpellsMore separator) := by
  have hnone : SpellsMore separator [] [] := ⟨[], rfl, by simp, .nil none⟩
  induction n with
  | zero => exact Consumes.pure hnone
  | succ n ih =>
      rw [parseMore]
      refine Consumes.eat_ite ((hparse n (by omega)).bind ?_) (Consumes.pure hnone)
      rintro taken t ⟨kinds, hspelling, hkeeps⟩
      refine (ih fun m hm => hparse m (by omega)).bind ?_
      rintro more ts ⟨parts, rfl, hparts, hmore⟩
      refine Consumes.pure ⟨⟨kinds, t⟩ :: parts, rfl, ?_, ?_⟩
      · exact List.forall_mem_cons.mpr ⟨hspelling, hparts⟩
      · simpa [TypePart.moreTokens] using (Keeps.outside hseparator).append (hkeeps.append hmore)

/-- Types between two marks, of which the first mark is read, and all that follows them. -/
theorem consumes_between {n : Nat} (hparse : ∀ m ≤ n, Consumes (parseWith m) Spells)
    {opening closing : Punct} {separator : TokenKind} (hopening : opening ≠ .openBracket)
    (hclosing : closing ≠ .openBracket) (hseparator : separator ≠ .punct .openBracket)
    {before kept : List TokenKind} (hbefore : Keeps none before kept none)
    {k : IdlType → List IdlType → Parser IdlType}
    (hk : ∀ taken (first : TypePart) (others : List TypePart),
      TypeSpelling first.tokens first.type →
      (∀ part ∈ others, TypeSpelling part.tokens part.type) →
      Keeps none taken (kept ++ .punct opening :: (first.tokens ++
        (TypePart.moreTokens separator others ++ [.punct closing]))) none →
      Consumes (k first.type (others.map TypePart.type)) fun more => Spells (taken ++ more)) :
    Consumes
      (do
        let first ← parseWith n
        let others ← parseMore separator n
        expectPunct closing
        k first others)
      fun more => Spells (before ++ .punct opening :: more) := by
  refine (hparse n (Nat.le_refl n)).bind ?_
  rintro taken t ⟨kinds, hspelling, hkeeps⟩
  refine (consumes_parseMore (fun m hm => hparse m (Nat.le_of_lt hm)) hseparator).bind ?_
  rintro more ts ⟨others, rfl, hothers, hmore⟩
  refine Consumes.expectPunct.bind ?_
  rintro _ _ rfl
  have hopened : Keeps none [.punct opening] [.punct opening] none :=
    .outside (by simpa using hopening)
  have hclosed : Keeps none [.punct closing] [.punct closing] none :=
    .outside (by simpa using hclosing)
  have hall := hbefore.append (hopened.append (hkeeps.append (hmore.append hclosed)))
  simpa using hk _ ⟨kinds, t⟩ others hspelling hothers hall

/-- Every run of the parser takes what spells the type that it gives. -/
theorem consumes_parseWith (n : Nat) : Consumes (parseWith n) Spells := by
  induction n using Nat.strong_induction_on with
  | _ n ih =>
  cases n with
  | zero =>
      rw [parseWith]
      exact Consumes.peek.bind fun taken found _ => Consumes.fail _
  | succ n =>
      have hparse : ∀ m ≤ n, Consumes (parseWith m) Spells := fun m hm => ih m (by omega)
      rw [parseWith]
      refine ExtAttr.consumes_parseList.bind fun attrs _ hattrs => ?_
      refine Consumes.eat_ite ?_ (Consumes.advance.bind ?_)
      · refine consumes_between hparse (by simp) (by simp) (by simp) hattrs ?_
        intro taken first others hfirst hothers hkeeps
        have hunion nullable := TypeSpelling.union nullable hfirst hothers
        exact consumes_question (by simpa using hunion) hkeeps
      · rintro _ found rfl
        cases found with
        | none => exact Consumes.fail _
        | some kind =>
            cases kind with
            | ident word =>
                refine (consumes_parseName word).bind ?_
                rintro sizes _ ⟨name, htokens, rfl⟩
                have hname := hattrs.append (Keeps.name name)
                simp only [Option.toList_some, List.cons_append, List.nil_append]
                refine Consumes.eat_ite ?_ ?_
                · simp only [← List.cons_append, htokens, ← List.append_assoc]
                  refine consumes_between hparse (by simp) (by simp) (by simp) hname ?_
                  intro taken first others hfirst hothers hkeeps
                  have hgeneric nullable := TypeSpelling.generic name nullable hfirst hothers
                  have hquestion := consumes_question (by simpa using hgeneric) hkeeps
                  -- A wrapper with a single parameter keeps it as a tree.
                  cases others with
                  | nil => exact hquestion
                  | cons second others => exact hquestion
                · have hquestion := consumes_question (TypeSpelling.name name) hname
                  simpa [← htokens] using hquestion
            | _ => exact Consumes.fail _

theorem consumes_parse : Consumes parse Spells := by
  refine Consumes.remaining.bind ?_
  rintro _ n rfl
  exact consumes_parseWith n

end IdlType

end IdlBindings
