import IdlBindings.Proofs.Definition.TypeTokens
import IdlBindings.Proofs.Token.Lookahead

/-!
# The grammar looks one token ahead

The parsers of extended attributes, types, values and arguments look at one token behind what they
take. A member ends with its semicolon, so its parser looks at none: a member is read in the same
way wherever it stands.

## Main definitions

* `Member.Skips`: what skipping up to a semicolon leaves
-/
namespace IdlBindings

open IdlBindings.Parser

/-! ## Extended attributes -/

namespace ExtAttr

/-- What a right-hand side takes ends before a token that tells so. -/
theorem takes_append {depth : Nat} {tokens tokens' : List Token} {taken : List TokenKind}
    (h : valueTokens depth tokens = some (taken, tokens')) {rest : List TokenKind}
    (hrest : rest.head? = (tokens'.map Token.kind).head?) :
    Takes depth (taken ++ rest) taken rest := by
  induction tokens generalizing depth taken with
  | nil => simp [valueTokens] at h
  | cons t ts ih =>
      by_cases hstop : depth = 0 ∧ (t.kind = .punct .comma ∨ t.kind = .punct .closeBracket)
      · obtain ⟨rfl, hkind⟩ := hstop
        rw [valueTokens, if_pos ⟨rfl, hkind⟩] at h
        obtain ⟨rfl, rfl⟩ := Prod.mk.inj (Option.some.inj h)
        obtain ⟨rest, rfl⟩ := List.head?_eq_some_iff.mp hrest
        exact Takes.stop hkind
      · rw [valueTokens_of_not_stop ts hstop, Option.map_eq_some_iff] at h
        obtain ⟨result, hresult, heq⟩ := h
        obtain ⟨rfl, rfl⟩ := Prod.mk.inj heq
        exact Takes.step hstop (ih hresult)

theorem predictive_parseValue : Predictive parseValue := by
  intro s value s' hrun
  rw [parseValue] at hrun
  split at hrun
  · next kinds tokens' hvalue =>
      obtain ⟨rfl, rfl⟩ := Prod.mk.inj (Except.ok.inj hrun)
      refine ⟨kinds, (takes_of_valueTokens hvalue).2.1, fun rest hrest t ht => ?_⟩
      obtain ⟨tokens'', hvalue', hkinds⟩ := takes_append hvalue hrest t.tokens ht
      exact ⟨{ t with tokens := tokens'' }, by rw [parseValue, hvalue'], hkinds⟩
  · cases hrun

theorem predictive_parseOne : Predictive parseOne := by
  refine Delimited.expectIdent.predictive.bind fun name => ?_
  refine Predictive.eat_ite (predictive_parseValue.bind fun value => .pure _) ?_
  refine Predictive.peek.bind fun found => ?_
  split
  · exact predictive_parseValue.bind fun value => .pure _
  · exact .pure _

/-- The attributes after an opening bracket. -/
theorem delimited_brackets :
    Delimited (do
      let attrs ← commaSeparated parseOne (← remaining)
      expectPunct .closeBracket
      return attrs) := by
  have hattrs : Predictive (remaining >>= commaSeparated parseOne) :=
    .remaining predictive_parseOne.commaSeparated (.commaSeparated predictive_parseOne)
  have hlist := Delimited.bind hattrs fun attrs => .expectPunct_pure .closeBracket attrs
  simpa only [bind_assoc] using hlist

theorem predictive_parseList : Predictive parseList :=
  .eat_ite delimited_brackets.predictive (.pure [])

end ExtAttr

/-- A list of extended attributes, or nothing. -/
structure AttrTokens where
  kinds : List TokenKind
  extAttrs : List ExtAttr
  reads : Reads ExtAttr.parseList kinds extAttrs []

namespace AttrTokens

/-- Attributes are read before everything that does not open a list of its own. -/
theorem reads_append (attrs : AttrTokens) {rest : List TokenKind}
    (hrest : rest.head? ≠ some (.punct .openBracket)) :
    Reads ExtAttr.parseList (attrs.kinds ++ rest) attrs.extAttrs rest := by
  obtain ⟨kinds, extAttrs, hreads⟩ := attrs
  by_cases hopen : kinds.head? = some (.punct .openBracket)
  · obtain ⟨inner, rfl⟩ := List.head?_eq_some_iff.mp hopen
    have hinner : Reads _ inner extAttrs [] := hreads.of_eat_then
    exact Reads.eat_then ((ExtAttr.delimited_brackets.reads_append hinner).2 rest)
  · obtain ⟨rfl, rfl⟩ := (ExtAttr.reads_no_list hopen).unique hreads
    exact ExtAttr.reads_no_list hrest

/-- Whatever is taken for attributes is read as such when it stands alone. -/
theorem exists_of_parseList {s s' : TokenStream} {extAttrs : List ExtAttr}
    (hrun : ExtAttr.parseList s = .ok (extAttrs, s')) :
    ∃ attrs : AttrTokens, attrs.extAttrs = extAttrs ∧ s.kinds = attrs.kinds ++ s'.kinds := by
  by_cases hopen : s.peek = some (.punct .openBracket)
  · obtain ⟨found, s₁, heat, hbrackets⟩ := run_bind_eq_ok_iff.mp hrun
    rw [eatPunct, run_eat, if_pos hopen] at heat
    obtain ⟨rfl, rfl⟩ := Prod.mk.inj (Except.ok.inj heat)
    obtain ⟨taken, _, hkinds, hreads⟩ := ExtAttr.delimited_brackets _ _ _ hbrackets
    have hattrs : Reads ExtAttr.parseList (.punct .openBracket :: taken) extAttrs [] :=
      Reads.eat_then (by simpa using hreads [])
    refine ⟨⟨_, extAttrs, hattrs⟩, rfl, ?_⟩
    rw [Reads.kinds_of_peek hopen, hkinds, List.cons_append]
  · rw [Reads.head?_kinds] at hopen
    obtain ⟨s'', hnone, hs''⟩ := ExtAttr.reads_no_list hopen s rfl
    obtain ⟨rfl, rfl⟩ := Prod.mk.inj (Except.ok.inj (hnone.symm.trans hrun))
    exact ⟨⟨[], [], ExtAttr.reads_no_list (by simp)⟩, rfl, hs''.symm⟩

end AttrTokens

/-! ## Types -/

namespace IdlType

theorem predictive_parseName (word : String) : Predictive (parseName word) := by
  intro s name s' hrun
  obtain ⟨hkinds, hsizes, hend⟩ := sizeWords_spec s.tokens
  by_cases htakes : takesSizeWords word = true
  · let n : TypeWords := ⟨word, (sizeWords s.tokens).1, hsizes, fun _ => htakes⟩
    simp only [parseName, htakes, if_true] at hrun
    obtain ⟨rfl, rfl⟩ := Prod.mk.inj (Except.ok.inj hrun)
    refine ⟨n.sizes.map .ident, hkinds, fun rest hrest => n.reads_sizes ?_⟩
    rw [hrest]
    exact hend
  · simp only [parseName, htakes] at hrun
    obtain ⟨rfl, rfl⟩ := Prod.mk.inj (Except.ok.inj hrun)
    refine ⟨[], rfl, fun rest _ t ht => ⟨t, ?_, ht⟩⟩
    simp [parseName, htakes]

theorem predictive_question (t : IdlType) :
    Predictive (do if ← eatPunct .question then return t.nullable else return t) :=
  .eat_ite (.pure _) (.pure _)

theorem predictive_parseWith (n : Nat) :
    Predictive (parseWith n) ∧ ∀ separator, Predictive (parseMore separator n) := by
  induction n with
  | zero =>
      rw [parseWith]
      refine ⟨Predictive.peek.bind fun found => .fail _, fun separator => ?_⟩
      rw [parseMore]
      exact .pure []
  | succ n ih =>
      obtain ⟨hwith, hmore⟩ := ih
      constructor
      · rw [parseWith]
        refine ExtAttr.predictive_parseList.bind fun _ => Predictive.eat_ite ?_ ?_
        · refine hwith.bind fun first => (hmore _).bind fun others => ?_
          exact Delimited.expectPunct.predictive.bind fun _ => predictive_question _
        · refine Predictive.advance.bind fun found => ?_
          split
          · next word =>
              refine (predictive_parseName word).bind fun name => Predictive.eat_ite ?_ ?_
              · refine hwith.bind fun first => (hmore _).bind fun others => ?_
                refine Delimited.expectPunct.predictive.bind fun _ => ?_
                split
                · exact (Predictive.pure _).bind fun t => predictive_question t
                · exact (Predictive.pure _).bind fun t => predictive_question t
              · exact (Predictive.pure _).bind fun t => predictive_question t
          · exact .fail _
      · intro separator
        rw [parseMore]
        exact Predictive.eat_ite
          (hwith.bind fun first => (hmore separator).bind fun others => .pure _) (.pure [])

/-- At the end of the input there is no type, whatever the bound. -/
theorem parseWith_end (n : Nat) : AgreeUpTo 0 (parseWith 0) (parseWith n) := by
  intro s hs
  have htokens : s.tokens = [] := List.length_eq_zero_iff.mp (Nat.le_zero.mp hs)
  cases n with
  | zero => rfl
  | succ n =>
      have hpeek : s.peek = none := by simp [TokenStream.peek, htokens]
      have hdrop : s.drop = s := by
        obtain ⟨tokens, stop⟩ := s
        obtain rfl : tokens = [] := htokens
        rfl
      simp [parseWith, ExtAttr.parseList, eatPunct, run_bind, run_eat, hpeek, hdrop]

theorem boundFree_parseWith (n : Nat) : ∀ m, n ≤ m →
    AgreeUpTo n (parseWith n) (parseWith m) ∧
      ∀ separator, AgreeUpTo n (parseMore separator n) (parseMore separator m) := by
  induction n with
  | zero =>
      intro m _
      refine ⟨parseWith_end m, fun separator => ?_⟩
      cases m with
      | zero => exact .rfl
      | succ m =>
          rw [parseMore, parseMore]
          exact AgreeUpTo.eat_end
  | succ n ih =>
      intro m hm
      cases m with
      | zero => omega
      | succ m =>
          obtain ⟨hwith, hmore⟩ := ih m (Nat.le_of_succ_le_succ hm)
          obtain ⟨hpwith, hpmore⟩ := predictive_parseWith m
          constructor
          · rw [parseWith, parseWith]
            refine AgreeUpTo.rfl.bind ExtAttr.predictive_parseList fun _ => AgreeUpTo.eat_ite ?_ ?_
            · refine hwith.bind hpwith fun first => ?_
              exact (hmore _).bind (hpmore _) fun others => .rfl
            · refine AgreeUpTo.rfl.bind .advance fun found => ?_
              split
              · next word =>
                  refine AgreeUpTo.rfl.bind (predictive_parseName word) fun name => ?_
                  refine AgreeUpTo.eat_ite (hwith.bind hpwith fun first => ?_) .rfl
                  exact (hmore _).bind (hpmore _) fun others => .rfl
              · exact .rfl
          · intro separator
            rw [parseMore, parseMore]
            refine AgreeUpTo.eat_ite (hwith.bind hpwith fun first => ?_) .rfl
            exact (hmore separator).bind (hpmore separator) fun others => .rfl

theorem predictive_parse : Predictive parse :=
  .remaining (fun n => (predictive_parseWith n).1) fun n m hnm => (boundFree_parseWith n m hnm).1

end IdlType

/-! ## Values and arguments -/

theorem predictive_parseDefault : Predictive parseDefault := by
  refine Predictive.advance.bind fun found => ?_
  split
  · exact .pure _
  · exact .pure _
  · exact .pure _
  · refine Predictive.advance.bind fun found => ?_
    split
    · exact .pure _
    · exact .fail _
  · exact (Delimited.expectPunct_pure _ _).predictive
  · exact (Delimited.expectPunct_pure _ _).predictive
  · exact .fail _

theorem Argument.predictive_parse : Predictive Argument.parse := by
  refine ExtAttr.predictive_parseList.bind fun _ => Predictive.eat.bind fun optional => ?_
  refine IdlType.predictive_parse.bind fun type => Predictive.eat.bind fun variadic => ?_
  refine Delimited.expectIdent.predictive.bind fun name => ?_
  split
  · exact Predictive.eat_ite (predictive_parseDefault.map.bind fun default => .pure _)
      ((Predictive.pure none).bind fun default => .pure _)
  · exact (Predictive.pure none).bind fun default => .pure _

theorem Argument.predictive_parseList : Predictive Argument.parseList := by
  refine Delimited.expectPunct.predictive.bind fun _ => Predictive.eat_ite (.pure []) ?_
  have harguments : Predictive (remaining >>= commaSeparated Argument.parse) :=
    .remaining predictive_parse.commaSeparated (.commaSeparated predictive_parse)
  have hlist := harguments.bind fun arguments =>
    (Delimited.expectPunct_pure .closeParen arguments).predictive
  simpa only [bind_assoc] using hlist

/-! ## Members -/

namespace Member

def isOpening : TokenKind → Bool
  | .punct .openParen | .punct .openBrace | .punct .openBracket | .punct .openAngle => true
  | _ => false

def isClosing : TokenKind → Bool
  | .punct .closeParen | .punct .closeBrace | .punct .closeBracket | .punct .closeAngle => true
  | _ => false

/-- The brackets that are open after a token. -/
def depthAfter (depth : Nat) (kind : TokenKind) : Nat :=
  if isOpening kind then depth + 1 else if isClosing kind then depth - 1 else depth

theorem skip_cons (depth : Nat) (t : Token) (ts : List Token) :
    skip depth (t :: ts) =
      if t.kind = .punct .semicolon ∧ depth = 0 then some ts
      else skip (depthAfter depth t.kind) ts := by
  rw [skip]
  split <;> simp_all [depthAfter, isOpening, isClosing]

/-- From tokens of the kinds `before`, inside `depth` brackets, skipping leaves `after`. -/
def Skips (depth : Nat) (before after : List TokenKind) : Prop :=
  ∀ tokens : List Token, tokens.map Token.kind = before →
    ∃ tokens', skip depth tokens = some tokens' ∧ tokens'.map Token.kind = after

theorem Skips.stop (rest : List TokenKind) : Skips 0 (.punct .semicolon :: rest) rest := by
  intro tokens htokens
  cases tokens with
  | nil => cases htokens
  | cons t ts =>
      rw [List.map_cons, List.cons.injEq] at htokens
      exact ⟨ts, by rw [skip_cons, if_pos ⟨htokens.1, rfl⟩], htokens.2⟩

theorem Skips.step {depth : Nat} {kind : TokenKind} {before after : List TokenKind}
    (hkind : ¬(kind = .punct .semicolon ∧ depth = 0))
    (hrest : Skips (depthAfter depth kind) before after) : Skips depth (kind :: before) after := by
  intro tokens htokens
  cases tokens with
  | nil => cases htokens
  | cons t ts =>
      obtain ⟨rfl, hts⟩ := List.cons.inj htokens
      obtain ⟨tokens', hskip, htokens'⟩ := hrest ts hts
      exact ⟨tokens', by rw [skip_cons, if_neg hkind, hskip], htokens'⟩

/-- What is skipped is skipped before every rest. -/
theorem exists_skips {depth : Nat} {tokens tokens' : List Token}
    (h : skip depth tokens = some tokens') :
    ∃ taken, taken ≠ [] ∧ tokens.map Token.kind = taken ++ tokens'.map Token.kind ∧
      ∀ rest, Skips depth (taken ++ rest) rest := by
  induction tokens generalizing depth with
  | nil => simp [skip] at h
  | cons t ts ih =>
      rw [skip_cons] at h
      split at h
      · next hstop =>
          obtain ⟨hkind, rfl⟩ := hstop
          obtain rfl := Option.some.inj h
          exact ⟨[.punct .semicolon], by simp, by simp [hkind], Skips.stop⟩
      · next hstop =>
          obtain ⟨taken, _, hkinds, hskips⟩ := ih h
          refine ⟨t.kind :: taken, by simp, by simp [hkinds], fun rest => ?_⟩
          exact Skips.step hstop (hskips rest)

theorem reads_parseSkipped {before after : List TokenKind} (h : Skips 0 before after) :
    Reads parseSkipped before () after := by
  intro s hs
  obtain ⟨tokens', hskip, htokens'⟩ := h s.tokens hs
  exact ⟨{ s with tokens := tokens' }, by rw [parseSkipped, hskip], htokens'⟩

theorem delimited_parseSkipped : Delimited parseSkipped := by
  intro s u s' hrun
  rw [parseSkipped] at hrun
  split at hrun
  · next tokens' hskip =>
      obtain ⟨rfl, rfl⟩ := Prod.mk.inj (Except.ok.inj hrun)
      obtain ⟨taken, hne, hkinds, hskips⟩ := exists_skips hskip
      exact ⟨taken, hne, hkinds, fun rest => reads_parseSkipped (hskips rest)⟩
  · cases hrun

theorem delimited_parseConstructor (extAttrs : List ExtAttr) :
    Delimited (parseConstructor extAttrs) :=
  .bind Argument.predictive_parseList fun _ => .expectPunct_pure _ _

theorem delimited_parseAttribute (isStatic readonly : Bool) (extAttrs : List ExtAttr) :
    Delimited (parseAttribute isStatic readonly extAttrs) := by
  refine .bind IdlType.predictive_parse fun type => ?_
  exact .bind Delimited.expectIdent.predictive fun name => .expectPunct_pure _ _

theorem delimited_parseOperation (isStatic : Bool) (extAttrs : List ExtAttr) :
    Delimited (parseOperation isStatic extAttrs) := by
  refine .bind IdlType.predictive_parse fun type => .bind .peek fun found => ?_
  split
  · refine .bind Delimited.expectIdent.predictive fun name => ?_
    exact .bind Argument.predictive_parseList fun arguments => .expectPunct_pure _ _
  · exact .fail _

theorem delimited_parseStaticOrPlain (extAttrs : List ExtAttr) :
    Delimited (parseStaticOrPlain extAttrs) := by
  refine .bind .eat fun isStatic => .bind .eat fun readonly => ?_
  refine .eat_ite (delimited_parseAttribute isStatic readonly extAttrs) ?_
  split
  · exact .fail _
  · exact delimited_parseOperation isStatic extAttrs

/-- A member ends with its semicolon, and nothing behind it matters. -/
theorem delimited_parse : Delimited Member.parse := by
  refine .bind ExtAttr.predictive_parseList fun extAttrs => .bind .peek fun found => ?_
  split
  · rw [bind_pure_comp]
    exact delimited_parseSkipped.map
  · exact .eat_ite (delimited_parseConstructor extAttrs).map
      (delimited_parseStaticOrPlain extAttrs).map

end Member
end IdlBindings
