import IdlBindings.Definition.Parser
import IdlBindings.Proofs.Token.Blame
import IdlBindings.Proofs.Token.Marks

/-!
# Places of syntax errors

Every parser of the grammar is accounted for, so a syntax error of a document names one of its
tokens and is shown at that token or right behind it. Three parsers read the token before they
fail: those of types, of the literals of an enumeration and of default values. Their errors are
shown at the wrong token, unless the input has ended or the same token comes twice.

## Main definitions

* `SyntaxError.PointsAt`: an error is shown where a token stands that is described as it says
-/
namespace IdlBindings

open IdlBindings.Parser

/-! ## Extended attributes -/

namespace ExtAttr

theorem suffix_of_valueTokens {depth : Nat} {tokens rest : List Token} {kinds : List TokenKind}
    (h : valueTokens depth tokens = some (kinds, rest)) : rest <:+ tokens := by
  induction tokens generalizing depth kinds with
  | nil => cases h
  | cons t ts ih =>
      rw [valueTokens] at h
      split at h
      · cases h
        exact List.suffix_refl _
      · obtain ⟨taken, hvalue, heq⟩ := Option.map_eq_some_iff.mp h
        cases heq
        exact (ih hvalue).trans (List.suffix_cons t ts)

theorem located_parseValue (s : TokenStream) : Located s (parseValue s) := by
  rw [parseValue]
  split
  · next hvalue => exact ⟨suffix_of_valueTokens hvalue, rfl⟩
  · refine ⟨s, .refl s, fun found hfound => ?_⟩
    cases hfound

theorem located_parseOne (s : TokenStream) : Located s (parseOne s) := by
  refine (Located.expectIdent s).bind fun name rest _ _ => Located.eat_bind (fun left _ _ => ?_) ?_
  · exact (located_parseValue left).bind fun _ last _ _ => .pure _ last
  · apply Located.peek_bind
    split
    · exact (located_parseValue rest).bind fun _ last _ _ => .pure _ last
    · exact .pure _ rest

theorem located_parseList (s : TokenStream) : Located s (parseList s) := by
  refine Located.eat_bind (fun rest _ _ => ?_) (.pure _ s)
  apply Located.remaining_bind
  refine (Located.commaSeparated located_parseOne _ rest).bind fun _ last _ _ => ?_
  exact (Located.expectPunct _ last).bind fun _ final _ _ => .pure _ final

end ExtAttr

/-! ## Types -/

namespace IdlType

theorem sizeWords_suffix (tokens : List Token) : (sizeWords tokens).2 <:+ tokens := by
  induction tokens with
  | nil => exact List.suffix_refl _
  | cons t ts ih =>
      rw [sizeWords]
      split
      · split
        · exact ih.trans (List.suffix_cons t ts)
        · exact List.suffix_refl _
      · exact List.suffix_refl _

theorem located_parseName (word : String) (s : TokenStream) : Located s (parseName word s) := by
  rw [parseName]
  split
  · exact ⟨sizeWords_suffix s.tokens, rfl⟩
  · exact .refl s

theorem located_question (t : IdlType) (s : TokenStream) :
    Located s ((eatPunct .question >>= fun found =>
      if found = true then pure t.nullable else pure t : Parser IdlType) s) :=
  Located.eat_bind (fun rest _ _ => .pure _ rest) (.pure _ s)

mutual

/-- The bound is never below the number of tokens, so what is done at zero is done at the end. -/
theorem located_parseWith (n : Nat) (s : TokenStream) (hs : s.tokens.length ≤ n) :
    Located s (parseWith n s) := by
  match n with
  | 0 =>
      rw [parseWith]
      exact Located.peek_bind (Located.fail_end hs rfl rfl)
  | n + 1 =>
      rw [parseWith]
      refine (ExtAttr.located_parseList s).bind fun _ rest _ hrest => ?_
      have hlength := hrest.length_le
      refine Located.eat_bind (fun left _ hleft => ?_) ?_
      · refine (located_parseWith n left (by omega)).bind fun _ left' _ hleft' => ?_
        have hlength' := hleft'.length_le
        refine (located_parseMore (.ident "or") n left' (by omega)).bind fun _ last _ _ => ?_
        refine (Located.expectPunct _ last).bind fun _ final _ _ => ?_
        exact located_question _ final
      · apply Located.advance_bind
        cases hpeek : rest.peek with
        | none => exact Located.fail_read (by rw [hpeek]; rfl) rfl
        | some kind =>
            cases kind with
            | ident word =>
                have hdrop := Located.length_drop_lt hpeek
                refine Located.of_leftOf ?_ (.drop rest)
                refine (located_parseName word rest.drop).bind fun name left _ hleft => ?_
                have hlength' := hleft.length_le
                refine Located.eat_bind (fun left' _ hleft' => ?_) ?_
                · refine (located_parseWith n left' (by omega)).bind fun _ last _ hlast => ?_
                  have hlength'' := hlast.length_le
                  refine (located_parseMore (.punct .comma) n last (by omega)).bind
                    fun others last' _ _ => ?_
                  refine (Located.expectPunct _ last').bind fun _ final _ _ => ?_
                  split
                  · exact (Located.pure _ final).bind fun _ end' _ _ => located_question _ end'
                  · exact (Located.pure _ final).bind fun _ end' _ _ => located_question _ end'
                · exact (Located.pure _ left).bind fun _ end' _ _ => located_question _ end'
            | _ => exact Located.fail_read (by rw [hpeek]; rfl) rfl

theorem located_parseMore (separator : TokenKind) (n : Nat) (s : TokenStream)
    (hs : s.tokens.length ≤ n) : Located s (parseMore separator n s) := by
  match n with
  | 0 =>
      rw [parseMore]
      exact .pure [] s
  | n + 1 =>
      rw [parseMore]
      refine Located.eat_bind (fun rest _ hrest => ?_) (.pure [] s)
      refine (located_parseWith n rest (by omega)).bind fun _ left _ hleft => ?_
      have hlength := hleft.length_le
      exact (located_parseMore separator n left (by omega)).bind fun _ last _ _ => .pure _ last

end

theorem located_parse (s : TokenStream) : Located s (parse s) :=
  located_parseWith s.tokens.length s (Nat.le_refl _)

end IdlType

/-! ## Values and arguments -/

theorem located_parseDefault (s : TokenStream) : Located s (parseDefault s) := by
  rw [parseDefault]
  apply Located.advance_bind
  cases hpeek : s.peek with
  | none => exact Located.fail_read (by rw [hpeek]; rfl) rfl
  | some kind =>
      cases kind with
      | ident word => exact (Located.pure _ s.drop).of_leftOf (.drop s)
      | text value => exact (Located.pure _ s.drop).of_leftOf (.drop s)
      | number digits => exact (Located.pure _ s.drop).of_leftOf (.drop s)
      | ellipsis => exact Located.fail_read (by rw [hpeek]; rfl) rfl
      | punct mark =>
          cases mark with
          | minus =>
              -- A sign is read, and then the token behind it.
              refine Located.of_leftOf ?_ (.drop s)
              apply Located.advance_bind
              cases hsecond : s.drop.peek with
              | none => exact Located.fail_read (by rw [hsecond]; rfl) rfl
              | some kind =>
                  cases kind with
                  | ident word => exact (Located.pure _ s.drop.drop).of_leftOf (.drop s.drop)
                  | _ => exact Located.fail_read (by rw [hsecond]; rfl) rfl
          | openBracket =>
              refine Located.of_leftOf ?_ (.drop s)
              exact (Located.expectPunct _ s.drop).bind fun _ rest _ _ => .pure _ rest
          | openBrace =>
              refine Located.of_leftOf ?_ (.drop s)
              exact (Located.expectPunct _ s.drop).bind fun _ rest _ _ => .pure _ rest
          | _ => exact Located.fail_read (by rw [hpeek]; rfl) rfl

/-- A default value behind its sign, if there is one, before whatever is done with it. -/
theorem located_default {α : Type} {f : Option String → Parser α} (s : TokenStream)
    (hf : ∀ default rest, Located rest (f default rest)) :
    Located s ((eatPunct .equals >>= fun found =>
      if found = true then (some <$> parseDefault) >>= f else pure none >>= f) s) := by
  refine Located.eat_bind (fun rest _ _ => ?_) ?_
  · exact (Located.map (located_parseDefault rest)).bind fun _ left _ _ => hf _ left
  · exact (Located.pure none s).bind fun _ left _ _ => hf _ left

theorem Argument.located_parse (s : TokenStream) : Located s (Argument.parse s) := by
  refine (ExtAttr.located_parseList s).bind fun _ s₁ _ _ => ?_
  refine (Located.eat _ s₁).bind fun optional s₂ _ _ => ?_
  refine (IdlType.located_parse s₂).bind fun _ s₃ _ _ => ?_
  refine (Located.eat _ s₃).bind fun variadic s₄ _ _ => ?_
  refine (Located.expectIdent s₄).bind fun name s₅ _ _ => ?_
  split
  · exact located_default s₅ fun _ rest => .pure _ rest
  · exact (Located.pure none s₅).bind fun _ rest _ _ => .pure _ rest

theorem Argument.located_parseList (s : TokenStream) : Located s (Argument.parseList s) := by
  refine (Located.expectPunct _ s).bind fun _ rest _ _ => ?_
  refine Located.eat_bind (fun left _ _ => .pure _ left) ?_
  apply Located.remaining_bind
  refine (Located.commaSeparated Argument.located_parse _ rest).bind fun _ last _ _ => ?_
  exact (Located.expectPunct _ last).bind fun _ final _ _ => .pure _ final

/-! ## Members -/

namespace Member

theorem suffix_of_skip {depth : Nat} {tokens rest : List Token}
    (h : skip depth tokens = some rest) : rest <:+ tokens := by
  induction tokens generalizing depth with
  | nil => cases h
  | cons t ts ih =>
      have hstep : ∀ {depth'}, skip depth' ts = some rest → rest <:+ t :: ts :=
        fun hskip => (ih hskip).trans (List.suffix_cons t ts)
      unfold skip at h
      split at h
      case h_9 =>
        -- Only a semicolon can end the member.
        split at h
        · cases h
          exact List.suffix_cons t _
        · exact hstep h
      all_goals exact hstep h

theorem located_parseSkipped (s : TokenStream) : Located s (parseSkipped s) := by
  rw [parseSkipped]
  split
  · next hskip => exact ⟨suffix_of_skip hskip, rfl⟩
  · refine ⟨s, .refl s, fun found hfound => ?_⟩
    cases hfound

theorem located_parseConstructor (extAttrs : List ExtAttr) (s : TokenStream) :
    Located s (parseConstructor extAttrs s) := by
  refine (Argument.located_parseList s).bind fun _ rest _ _ => ?_
  exact (Located.expectPunct _ rest).bind fun _ left _ _ => .pure _ left

theorem located_parseAttribute (isStatic readonly : Bool) (extAttrs : List ExtAttr)
    (s : TokenStream) : Located s (parseAttribute isStatic readonly extAttrs s) := by
  refine (IdlType.located_parse s).bind fun _ s₁ _ _ => ?_
  refine (Located.expectIdent s₁).bind fun _ s₂ _ _ => ?_
  exact (Located.expectPunct _ s₂).bind fun _ rest _ _ => .pure _ rest

theorem located_parseOperation (isStatic : Bool) (extAttrs : List ExtAttr) (s : TokenStream) :
    Located s (parseOperation isStatic extAttrs s) := by
  refine (IdlType.located_parse s).bind fun _ s₁ _ _ => Located.peek_bind ?_
  cases hpeek : s₁.peek with
  | none => exact Located.fail_of_none rfl s₁
  | some kind =>
      cases kind with
      | ident word =>
          refine (Located.expectIdent s₁).bind fun _ s₂ _ _ => ?_
          refine (Argument.located_parseList s₂).bind fun _ s₃ _ _ => ?_
          exact (Located.expectPunct _ s₃).bind fun _ rest _ _ => .pure _ rest
      | _ => exact Located.fail_of_none rfl s₁

theorem located_parseStaticOrPlain (extAttrs : List ExtAttr) (s : TokenStream) :
    Located s (parseStaticOrPlain extAttrs s) := by
  refine (Located.eat _ s).bind fun isStatic s₁ _ _ => ?_
  refine (Located.eat _ s₁).bind fun readonly s₂ _ _ => ?_
  refine Located.eat_bind (fun rest _ _ => located_parseAttribute _ _ _ rest) ?_
  split
  · exact Located.fail_of_none rfl s₂
  · exact located_parseOperation _ _ s₂

theorem located_parse (s : TokenStream) : Located s (parse s) := by
  refine (ExtAttr.located_parseList s).bind fun _ s₁ _ _ => Located.peek_bind ?_
  split
  · exact (located_parseSkipped s₁).bind fun _ rest _ _ => .pure _ rest
  · refine Located.eat_bind (fun rest _ _ => ?_) ?_
    · exact (located_parseConstructor _ rest).map
    · exact (located_parseStaticOrPlain _ s₁).map

theorem located_parseBody (s : TokenStream) : Located s (parseBody s) := by
  refine (Located.expectPunct _ s).bind fun _ s₁ _ _ => ?_
  exact Located.remaining_bind (Located.untilBrace located_parse _ s₁)

end Member

theorem Field.located_parse (s : TokenStream) : Located s (Field.parse s) := by
  refine (ExtAttr.located_parseList s).bind fun _ s₁ _ _ => ?_
  refine (Located.eat _ s₁).bind fun required s₂ _ _ => ?_
  refine (ExtAttr.located_parseList s₂).bind fun _ s₃ _ _ => ?_
  refine (IdlType.located_parse s₃).bind fun _ s₄ _ _ => ?_
  refine (Located.expectIdent s₄).bind fun name s₅ _ _ => ?_
  refine located_default s₅ fun default rest => ?_
  exact (Located.expectPunct _ rest).bind fun _ left _ _ => .pure _ left

theorem Field.located_parseBody (s : TokenStream) : Located s (Field.parseBody s) := by
  refine (Located.expectPunct _ s).bind fun _ s₁ _ _ => ?_
  apply Located.remaining_bind
  exact Located.untilBrace (fun rest => (Field.located_parse rest).map) _ s₁

theorem located_parseEnumValues (n : Nat) (s : TokenStream) (hs : s.tokens.length ≤ n) :
    Located s (parseEnumValues n s) := by
  induction n generalizing s with
  | zero =>
      rw [parseEnumValues]
      exact Located.peek_bind (Located.fail_end hs rfl rfl)
  | succ n ih =>
      rw [parseEnumValues]
      apply Located.advance_bind
      cases hpeek : s.peek with
      | none => exact Located.fail_read (by rw [hpeek]; rfl) rfl
      | some kind =>
          cases kind with
          | text value =>
              have hdrop := Located.length_drop_lt hpeek
              refine Located.of_leftOf ?_ (.drop s)
              refine Located.eat_bind (fun rest _ hrest => ?_) ?_
              · refine Located.eat_bind (fun left _ _ => .pure _ left) ?_
                exact (ih rest (by omega)).bind fun _ left _ _ => .pure _ left
              · exact (Located.expectPunct _ s.drop).bind fun _ rest _ _ => .pure _ rest
          | _ => exact Located.fail_read (by rw [hpeek]; rfl) rfl

/-! ## Definitions -/

namespace Definition

theorem located_parseParent (s : TokenStream) : Located s (parseParent s) :=
  Located.eat_bind (fun rest _ _ => (Located.expectIdent rest).map) (.pure none s)

theorem located_parseInterface (isPartial : Bool) (extAttrs : List ExtAttr) (s : TokenStream) :
    Located s (parseInterface isPartial extAttrs s) := by
  refine Located.eat_bind (fun s₁ _ _ => ?_) ?_
  · refine (Located.expectIdent s₁).bind fun _ s₂ _ _ => ?_
    exact (Member.located_parseBody s₂).bind fun _ rest _ _ => .pure _ rest
  · refine (Located.expectIdent s).bind fun _ s₁ _ _ => ?_
    refine (located_parseParent s₁).bind fun _ s₂ _ _ => ?_
    exact (Member.located_parseBody s₂).bind fun _ rest _ _ => .pure _ rest

theorem located_parseDictionary (isPartial : Bool) (s : TokenStream) :
    Located s (parseDictionary isPartial s) := by
  refine (Located.expectIdent s).bind fun _ s₁ _ _ => ?_
  refine (located_parseParent s₁).bind fun _ s₂ _ _ => ?_
  exact (Field.located_parseBody s₂).bind fun _ rest _ _ => .pure _ rest

theorem located_parseEnum (s : TokenStream) : Located s (parseEnum s) := by
  refine (Located.expectIdent s).bind fun _ s₁ _ _ => ?_
  refine (Located.expectPunct _ s₁).bind fun _ s₂ _ _ => ?_
  apply Located.remaining_bind
  have hvalues := located_parseEnumValues s₂.tokens.length s₂ (Nat.le_refl _)
  exact hvalues.bind fun _ rest _ _ => .pure _ rest

theorem located_parseTypedef (s : TokenStream) : Located s (parseTypedef s) := by
  refine (ExtAttr.located_parseList s).bind fun _ s₁ _ _ => ?_
  refine (IdlType.located_parse s₁).bind fun _ s₂ _ _ => ?_
  exact (Located.expectIdent s₂).bind fun _ rest _ _ => .pure _ rest

theorem located_parseIncludes (s : TokenStream) : Located s (parseIncludes s) := by
  refine (Located.expectIdent s).bind fun _ s₁ _ _ => ?_
  refine (Located.advance s₁).bind fun _ s₂ _ _ => ?_
  exact (Located.expectIdent s₂).bind fun _ rest _ _ => .pure _ rest

theorem located_parseBody (isPartial : Bool) (extAttrs : List ExtAttr) (s : TokenStream) :
    Located s (parseBody isPartial extAttrs s) := by
  have hdefinition : Located s ((fail (.expectedDefinition s.peek) : Parser Definition) s) :=
    Located.fail_next rfl rfl
  rw [parseBody]
  cases hpeek : s.peek with
  | none => rwa [hpeek] at hdefinition
  | some kind =>
      rw [hpeek] at hdefinition
      cases kind with
      | ident word =>
          dsimp only
          split
          · exact (located_parseInterface _ _ s.drop).of_leftOf (.drop s)
          split
          · exact (located_parseDictionary _ s.drop).of_leftOf (.drop s)
          split
          · exact (located_parseEnum s.drop).of_leftOf (.drop s)
          split
          · exact (located_parseTypedef s.drop).of_leftOf (.drop s)
          split
          · exact Located.fail_of_none rfl s
          split
          · exact located_parseIncludes s
          · exact hdefinition
      | _ => exact hdefinition

theorem located_parse (s : TokenStream) : Located s (parse s) := by
  refine (ExtAttr.located_parseList s).bind fun _ s₁ _ _ => ?_
  refine (Located.eat _ s₁).bind fun _ s₂ _ _ => ?_
  refine (located_parseBody _ _ s₂).bind fun _ s₃ _ _ => ?_
  exact (Located.expectPunct _ s₃).bind fun _ rest _ _ => .pure _ rest

theorem located_parseAll (n : Nat) (s : TokenStream) : Located s (parseAll n s) := by
  induction n generalizing s with
  | zero => exact .pure [] s
  | succ n ih =>
      rw [parseAll]
      apply Located.peek_bind
      split
      · exact .pure [] s
      · refine (located_parse s).bind fun _ rest _ _ => ?_
        exact (ih rest).bind fun _ left _ _ => .pure _ left

/-- A document that is rejected is rejected at one of its tokens. -/
theorem exists_raisedAt {s : TokenStream} {e : SyntaxError} (h : listOfTokens s = .error e) :
    ∃ rest : TokenStream, rest.LeftOf s ∧ e.RaisedAt rest := by
  have hlocated := located_parseAll s.tokens.length s
  rw [listOfTokens] at h
  match hrun : parseAll s.tokens.length s with
  | .ok (definitions, rest) =>
      rw [hrun] at h
      cases h
  | .error e' =>
      rw [hrun] at h hlocated
      cases h
      exact hlocated

end Definition

/-! ## Places -/

/-- At the place where the error is shown there is a token, or the end of the input, that is
described like the one that the error names. -/
def SyntaxError.PointsAt (e : SyntaxError) (s : TokenStream) (found : Option TokenKind) : Prop :=
  ∃ mark ∈ s.marks, mark.position.place = e.position.place ∧
    describeToken mark.kind = describeToken found

instance (e : SyntaxError) (s : TokenStream) (found : Option TokenKind) :
    Decidable (e.PointsAt s found) :=
  inferInstanceAs (Decidable (∃ mark ∈ s.marks, mark.position.place = e.position.place ∧
    describeToken mark.kind = describeToken found))

variable {source : String} {s rest : TokenStream} {e : SyntaxError} {found : Option TokenKind}

theorem TokenStream.LeftOf.exists_marks (h : rest.LeftOf s) :
    ∃ before, s.marks = before ++ rest.mark :: rest.marks.tail := by
  obtain ⟨before, hbefore⟩ := h.suffix
  refine ⟨before.map Token.mark, ?_⟩
  rw [← rest.marks_eq_cons, TokenStream.marks, TokenStream.marks, ← hbefore, h.stop,
    List.map_append, List.append_assoc]

theorem TokenStream.LeftOf.mark_mem (h : rest.LeftOf s) : rest.mark ∈ s.marks := by
  obtain ⟨before, hmarks⟩ := h.exists_marks
  rw [hmarks]
  exact List.mem_append_right before List.mem_cons_self

/-- An error points at what it names exactly if the mark at its place is of that kind. -/
theorem pointsAt_iff (hs : TokenStream.ofText source = .ok s) {named shown : Mark}
    (hnamed : named ∈ s.marks) (hshown : shown ∈ s.marks) (hplace : e.position = shown.position) :
    e.PointsAt s named.kind ↔ shown.kind = named.kind := by
  constructor
  · rintro ⟨mark, hmark, hmarkPlace, hdescribed⟩
    rw [hplace] at hmarkPlace
    obtain rfl := List.inj_on_of_nodup_map (nodup_places hs) hmark hshown hmarkPlace
    exact describeToken_injective (isWritable_of_mem_marks hs hmark)
      (isWritable_of_mem_marks hs hnamed) hdescribed
  · intro hkind
    exact ⟨shown, hshown, by rw [hplace], by rw [hkind]⟩

/-- **Where syntax errors point.** An error that names a token, in the words of its message, is
about one token of the text, or its end. If the fault is raised before that token is read, the error
is shown there; otherwise it is shown at the mark behind. So the line and column of the error lead
to a token described as in its message exactly if the token was not read, or the input has ended, or
the token behind is the same again. -/
theorem named_token_at_place_iff (hs : TokenStream.ofText source = .ok s)
    (he : Definition.listOfTokens s = .error e) (hfound : e.fault.found? = some found) :
    (∃ what, e.fault.message = "expected " ++ what ++ ", found " ++ describeToken found) ∧
      (s.marks.map fun mark => mark.position.place).Nodup ∧
      ∃ before named after, s.marks = before ++ named :: after ∧ named.kind = found ∧
        e.position = (if e.fault.isLate then after.headD named else named).position ∧
        (e.PointsAt s found ↔
          e.fault.isLate = false ∨ found = none ∨ after.head?.map Mark.kind = some found) := by
  obtain ⟨rest, hrest, hraised⟩ := Definition.exists_raisedAt he
  obtain ⟨rfl, hposition⟩ := hraised found hfound
  obtain ⟨before, hmarks⟩ := hrest.exists_marks
  refine ⟨SyntaxFault.message_of_found? hfound, nodup_places hs, before, rest.mark,
    rest.marks.tail, hmarks, rfl, ?_, ?_⟩
  · rw [hposition, rest.headD_tail_marks]
    split <;> rfl
  cases hlate : e.fault.isLate with
  | false =>
      rw [hlate] at hposition
      exact iff_of_true ((pointsAt_iff hs hrest.mark_mem hrest.mark_mem hposition).mpr rfl)
        (.inl rfl)
  | true =>
      rw [hlate] at hposition
      have hdrop : rest.drop.LeftOf s := (TokenStream.LeftOf.drop rest).trans hrest
      have hpoints := pointsAt_iff hs hrest.mark_mem hdrop.mark_mem hposition
      rw [rest.head?_tail_marks]
      by_cases hpeek : rest.peek = none
      · rw [TokenStream.drop_of_peek_eq_none hpeek] at hpoints
        exact iff_of_true (hpoints.mpr rfl) (.inr (.inl hpeek))
      · rw [if_neg hpeek, Option.map_some, Option.some.injEq]
        exact hpoints.trans (by simp [hpeek, TokenStream.mark])

/-- An attribute without a name: the error names the semicolon and is shown there. -/
theorem named_token_at_place_iff_attribute :
    ∃ s e, TokenStream.ofText "interface F \x7battribute long;" = .ok s ∧
      Definition.listOfTokens s = .error e ∧
      e = ⟨.expectedIdentifier (some (.punct .semicolon)), ⟨27, 1, 28⟩⟩ ∧
      e.PointsAt s (some (.punct .semicolon)) := by
  let s : TokenStream := .inLine [(.ident "interface", 0), (.ident "F", 10),
    (.punct .openBrace, 12), (.ident "attribute", 13), (.ident "long", 23),
    (.punct .semicolon, 27)] 28
  have hread : TokenStream.ofText "interface F \x7battribute long;" = .ok s := rfl
  have hrejected : Definition.listOfTokens s =
      .error ⟨.expectedIdentifier (some (.punct .semicolon)), ⟨27, 1, 28⟩⟩ := rfl
  obtain ⟨_, _, _, _, _, _, _, _, hpoints⟩ := named_token_at_place_iff hread hrejected rfl
  exact ⟨s, _, hread, hrejected, rfl, hpoints.mpr (.inl rfl)⟩

/-- The text is rejected by an error that names a token and is not shown at such a token. -/
def PointsElsewhere (source : String) : Prop :=
  ∃ s e found, TokenStream.ofText source = .ok s ∧ Definition.listOfTokens s = .error e ∧
    e.fault.found? = some found ∧ ¬e.PointsAt s found

/-- A missing type, a literal without quotes and a default value that is none: each error is shown
at the token behind the one that it names. -/
theorem read_token_not_at_place :
    PointsElsewhere "typedef ; X;" ∧ PointsElsewhere "enum E \x7bx," ∧
      PointsElsewhere "dictionary D \x7blong x=?;" := by
  refine ⟨⟨.inLine [(.ident "typedef", 0), (.punct .semicolon, 8), (.ident "X", 10),
        (.punct .semicolon, 11)] 12,
      ⟨.expectedType (some (.punct .semicolon)), ⟨10, 1, 11⟩⟩, _, rfl, rfl, rfl, by decide⟩,
    ⟨.inLine [(.ident "enum", 0), (.ident "E", 5), (.punct .openBrace, 7), (.ident "x", 8),
        (.punct .comma, 9)] 10,
      ⟨.expectedEnumValue (some (.ident "x")), ⟨9, 1, 10⟩⟩, _, rfl, rfl, rfl, by decide⟩,
    ⟨.inLine [(.ident "dictionary", 0), (.ident "D", 11), (.punct .openBrace, 13),
        (.ident "long", 14), (.ident "x", 19), (.punct .equals, 20), (.punct .question, 21),
        (.punct .semicolon, 22)] 23,
      ⟨.expectedDefault (some (.punct .question)), ⟨22, 1, 23⟩⟩, _, rfl, rfl, rfl, by decide⟩⟩

end IdlBindings
