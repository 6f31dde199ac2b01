import IdlBindings.Proofs.Definition.PartParser

/-!
# Reading forms from tokens

Each parser of the grammar reads the tokens of a form as what the form stands for: arguments,
members, fields and definitions, and then definitions one after the other up to the end of the
input. The parts are read as in `PartParser`.
-/
namespace IdlBindings

open IdlBindings.Parser

variable {kinds rest : List TokenKind}

/-! ## Arguments -/

theorem ArgumentForm.reads_parse (a : ArgumentForm) {kind : TokenKind}
    (hkind : kind = .punct .comma ∨ kind = .punct .closeParen) (rest : List TokenKind) :
    Reads Argument.parse (a.tokens ++ kind :: rest) a.argument (kind :: rest) := by
  cases a with
  | required type name =>
      rw [tokens, List.append_assoc]
      refine (ExtAttr.reads_no_list (type.head?_ne_punct (by decide))).bind ?_
      refine (Reads.eat_other (type.head?_ne_ident (by decide))).bind ?_
      refine (type.reads_parse_escaped name _).bind ?_
      refine (Reads.eat_other (by simp [PlainName.escaped])).bind ?_
      refine (name.reads_escaped _).bind ?_
      exact (Reads.pure _ _).bind (Reads.pure _ _)
  | optional type name default =>
      have hrest : (kind :: rest).head? ≠ some (.punct .equals) := by
        rcases hkind with rfl | rfl <;> simp
      simp only [tokens, List.cons_append, List.append_assoc]
      refine (ExtAttr.reads_no_list (by simp)).bind ?_
      refine (Reads.eat_head _ _).bind ?_
      refine (type.reads_parse_escaped name _).bind ?_
      refine (Reads.eat_other (by simp [PlainName.escaped])).bind ?_
      refine (name.reads_escaped _).bind ?_
      exact reads_defaultTokens default hrest (Reads.pure _ _)
  | variadic type name =>
      rw [tokens, List.append_assoc]
      refine (ExtAttr.reads_no_list (type.head?_ne_punct (by decide))).bind ?_
      refine (Reads.eat_other (type.head?_ne_ident (by decide))).bind ?_
      refine (type.reads_parse rfl).bind ?_
      refine (Reads.eat_head _ _).bind ?_
      refine (name.reads_escaped _).bind ?_
      exact (Reads.pure _ _).bind (Reads.pure _ _)

theorem ArgumentForm.head?_ne_closeParen (a : ArgumentForm) :
    (a.tokens ++ rest).head? ≠ some (.punct .closeParen) := by
  cases a with
  | required type name =>
      rw [tokens, List.append_assoc]
      exact type.head?_ne_punct (by decide)
  | optional type name default => simp [tokens]
  | variadic type name =>
      rw [tokens, List.append_assoc]
      exact type.head?_ne_punct (by decide)

theorem ArgumentForm.reads_parseList (as : List ArgumentForm) (rest : List TokenKind) :
    Reads Argument.parseList (listTokens as ++ rest) (as.map argument) rest := by
  cases as with
  | nil => exact (Reads.expectPunct _ _).bind (Reads.eat_then (Reads.pure [] rest))
  | cons a as =>
      simp only [listTokens, List.cons_append, List.append_assoc]
      refine (Reads.expectPunct _ _).bind (Reads.eat_else a.head?_ne_closeParen ?_)
      refine (Reads.remaining _).bind ?_
      refine (Reads.commaSeparated (by decide) (fun a _ rest hkind => a.reads_parse hkind rest) as
        ?_ a rest).bind ((Reads.expectPunct _ _).bind (Reads.pure _ _))
      have hlength := Reads.length_le_length_flatMap
        (fun a => List.cons_ne_nil (.punct .comma) (tokens a)) as
      simp only [List.length_append]
      omega

/-! ## Members -/

theorem reads_keywordIf (present : Bool) {word : String} (hrest : rest.head? ≠ some (.ident word)) :
    Reads (eatKeyword word) (keywordIf present word ++ rest) present rest := by
  cases present with
  | true => exact Reads.eat_head _ _
  | false => exact Reads.eat_other hrest

theorem TypeForm.startsSkipped_eq_false (t : TypeForm) :
    Member.startsSkipped (t.tokens ++ rest).head? = false := by
  obtain ⟨kind, kinds, htokens, rfl | ⟨word, rfl, hword⟩⟩ := t.startsType
  · simp [htokens, Member.startsSkipped]
  · have hskipped : word ∉ Member.skippedKeywords := fun h => hword (List.mem_append_left _ h)
    simpa [htokens, Member.startsSkipped] using hskipped

/-- A member with bindings after its extended attributes. -/
theorem reads_member (extAttrs : List ExtAttrForm) {m : Member} {kinds after : List TokenKind}
    (hbracket : kinds.head? ≠ some (.punct .openBracket))
    (hskipped : Member.startsSkipped kinds.head? = false)
    (hconstructor : kinds.head? ≠ some (.ident "constructor"))
    (hmember : Reads (Member.parseStaticOrPlain (extAttrs.map ExtAttrForm.extAttr)) kinds m after) :
    Reads Member.parse (ExtAttrForm.listTokens extAttrs ++ kinds) (some m) after := by
  refine (ExtAttrForm.reads_parseList extAttrs hbracket).bind ((Reads.peek _).bind ?_)
  rw [if_neg (by simp [hskipped])]
  exact Reads.eat_else hconstructor hmember.map

theorem reads_operation (isStatic : Bool) (result : Option ResultForm) (name : PlainName)
    (arguments : List ArgumentForm) (extAttrs : List ExtAttr) (rest : List TokenKind) :
    Reads (Member.parseOperation isStatic extAttrs)
      ((resultType result).tokens ++ name.escaped ::
        (ArgumentForm.listTokens arguments ++ .punct .semicolon :: rest))
      (.operation ⟨name.text, arguments.map ArgumentForm.argument,
        result.map fun type => type.val.type, isStatic, extAttrs⟩) rest := by
  have hresult : (if (resultType result).type.isUndefined = true then none
      else some (resultType result).type) = result.map fun type => type.val.type := by
    cases result with
    | none => rfl
    | some type => simp [resultType, type.property]
  refine ((resultType result).reads_parse_escaped name _).bind ((Reads.peek _).bind ?_)
  refine (name.reads_escaped _).bind ?_
  refine (ArgumentForm.reads_parseList arguments _).bind ((Reads.expectPunct _ _).bind ?_)
  rw [hresult]
  exact Reads.pure _ _

theorem MemberForm.reads_parse (x : MemberForm) (rest : List TokenKind) :
    Reads Member.parse (x.tokens ++ rest) (some x.member) rest := by
  cases x with
  | operation isStatic result name arguments extAttrs =>
      have hword : ∀ {word : String} {rest : List TokenKind}, word ∈ reservedWords →
          ((resultType result).tokens ++ rest).head? ≠ some (.ident word) :=
        fun hword => (resultType result).head?_ne_ident hword
      simp only [tokens, List.append_assoc, List.cons_append, List.nil_append]
      apply reads_member extAttrs
      · cases isStatic with
        | true => simp [keywordIf]
        | false => exact (resultType result).head?_ne_punct (by decide)
      · cases isStatic with
        | true => simp [keywordIf, Member.startsSkipped, Member.skippedKeywords]
        | false => exact (resultType result).startsSkipped_eq_false
      · cases isStatic with
        | true => simp [keywordIf]
        | false => exact hword (by decide)
      · refine (reads_keywordIf isStatic (hword (by decide))).bind ?_
        refine (Reads.eat_other (hword (by decide))).bind ?_
        refine Reads.eat_else (hword (by decide)) ?_
        exact reads_operation isStatic result name arguments _ rest
  | «attribute» isStatic readonly type name extAttrs =>
      simp only [tokens, List.append_assoc, List.cons_append, List.nil_append]
      apply reads_member extAttrs
      · cases isStatic <;> cases readonly <;> simp [keywordIf]
      · cases isStatic <;> cases readonly <;>
          simp [keywordIf, Member.startsSkipped, Member.skippedKeywords]
      · cases isStatic <;> cases readonly <;> simp [keywordIf]
      · refine (reads_keywordIf isStatic (by cases readonly <;> simp [keywordIf])).bind ?_
        refine (reads_keywordIf readonly (by simp)).bind (Reads.eat_then ?_)
        refine (type.reads_parse_escaped name _).bind ((name.reads_escaped _).bind ?_)
        exact (Reads.expectPunct _ _).bind (Reads.pure _ _)
  | constructor arguments extAttrs =>
      simp only [tokens, List.append_assoc, List.cons_append]
      refine (ExtAttrForm.reads_parseList extAttrs (by simp)).bind ((Reads.peek _).bind ?_)
      rw [if_neg (by simp [Member.startsSkipped, Member.skippedKeywords])]
      refine Reads.eat_then (Reads.map ?_)
      exact (ArgumentForm.reads_parseList arguments _).bind
        ((Reads.expectPunct _ _).bind (Reads.pure _ _))

/-- A member starts with a token that does not close the body. -/
theorem MemberForm.head?_ne_closeBrace (x : MemberForm) :
    (x.tokens ++ rest).head? ≠ some (.punct .closeBrace) := by
  cases x with
  | operation isStatic result name arguments extAttrs =>
      cases extAttrs with
      | nil =>
          cases isStatic with
          | true => simp [tokens, ExtAttrForm.listTokens, keywordIf]
          | false =>
              simp only [tokens, ExtAttrForm.listTokens, keywordIf, List.append_assoc]
              exact (resultType result).head?_ne_punct (by decide)
      | cons e es => simp [tokens, ExtAttrForm.listTokens]
  | «attribute» isStatic readonly type name extAttrs =>
      cases extAttrs with
      | nil =>
          cases isStatic <;> cases readonly <;> simp [tokens, ExtAttrForm.listTokens, keywordIf]
      | cons e es => simp [tokens, ExtAttrForm.listTokens]
  | constructor arguments extAttrs =>
      cases extAttrs <;> simp [tokens, ExtAttrForm.listTokens]

/-- A body in braces, of which items without a value are left out. -/
theorem reads_body_filterMap {α β : Type} {item : Parser (Option α)} {tokens : β → List TokenKind}
    {value : β → Option α}
    (hhead : ∀ x rest, (tokens x ++ rest).head? ≠ some (.punct .closeBrace))
    (hitem : ∀ x rest, Reads item (tokens x ++ rest) (value x) rest) (xs : List β)
    (rest : List TokenKind) :
    Reads (expectPunct .openBrace >>= fun _ => remaining >>= untilBrace item)
      (bodyTokens tokens xs ++ rest) (xs.filterMap value) rest := by
  have hne : ∀ x, tokens x ≠ [] := by
    intro x hnil
    exact hhead x [.punct .closeBrace] (by rw [hnil]; rfl)
  have hlength := Reads.length_le_length_flatMap hne xs
  simp only [bodyTokens, List.cons_append, List.append_assoc, List.nil_append]
  refine (Reads.expectPunct _ _).bind ((Reads.remaining _).bind ?_)
  exact Reads.untilBrace hhead hitem xs
    (n := (xs.flatMap tokens ++ .punct .closeBrace :: rest).length)
    (by simp only [List.length_append, List.length_cons]; omega) rest

/-- A body in braces. -/
theorem reads_body {α β : Type} {item : Parser (Option α)} {tokens : β → List TokenKind}
    {value : β → α} (hhead : ∀ x rest, (tokens x ++ rest).head? ≠ some (.punct .closeBrace))
    (hitem : ∀ x rest, Reads item (tokens x ++ rest) (some (value x)) rest) (xs : List β)
    (rest : List TokenKind) :
    Reads (expectPunct .openBrace >>= fun _ => remaining >>= untilBrace item)
      (bodyTokens tokens xs ++ rest) (xs.map value) rest := by
  have hitems := reads_body_filterMap hhead hitem xs rest
  rwa [List.filterMap_eq_map'] at hitems

theorem MemberForm.reads_parseBody (xs : List MemberForm) (rest : List TokenKind) :
    Reads Member.parseBody (bodyTokens tokens xs ++ rest) (xs.map member) rest :=
  reads_body (fun x _ => x.head?_ne_closeBrace) (fun x rest => x.reads_parse rest) xs rest

/-! ## Fields -/

theorem FieldForm.reads_parse (f : FieldForm) (rest : List TokenKind) :
    Reads Field.parse (f.tokens ++ rest) f.field rest := by
  obtain ⟨name, type, required, default⟩ := f
  simp only [tokens, List.append_assoc, List.cons_append, List.nil_append]
  have hrequired : ∀ rest : List TokenKind,
      (type.tokens ++ rest).head? ≠ some (.ident "required") :=
    fun _ => type.head?_ne_ident (by decide)
  have hbracket : ∀ rest : List TokenKind,
      (type.tokens ++ rest).head? ≠ some (.punct .openBracket) :=
    fun _ => type.head?_ne_punct (by decide)
  refine (ExtAttr.reads_no_list ?_).bind ?_
  · cases required with
    | true => simp [keywordIf]
    | false => exact hbracket _
  · refine (reads_keywordIf required (hrequired _)).bind ?_
    refine (ExtAttr.reads_no_list (hbracket _)).bind ?_
    refine (type.reads_parse_escaped name _).bind ((name.reads_escaped _).bind ?_)
    exact reads_defaultTokens default (by simp) ((Reads.expectPunct _ _).bind (Reads.pure _ _))

theorem FieldForm.head?_ne_closeBrace (f : FieldForm) :
    (f.tokens ++ rest).head? ≠ some (.punct .closeBrace) := by
  obtain ⟨name, type, required, default⟩ := f
  cases required with
  | true => simp [tokens, keywordIf]
  | false =>
      simp only [tokens, keywordIf, List.append_assoc]
      exact type.head?_ne_punct (by decide)

theorem FieldForm.reads_parseBody (fs : List FieldForm) (rest : List TokenKind) :
    Reads Field.parseBody (bodyTokens tokens fs ++ rest) (fs.map field) rest :=
  reads_body (fun f _ => f.head?_ne_closeBrace) (fun f rest => (f.reads_parse rest).map) fs rest

/-! ## Definitions -/

theorem reads_parseEnumValues (others : List QuotedText) {n : Nat} (hn : others.length < n)
    (first : QuotedText) (rest : List TokenKind) :
    Reads (parseEnumValues n)
      (.text first.val :: ((others.flatMap fun v => [.punct .comma, .text v.val]) ++
        .punct .closeBrace :: rest))
      (first.val :: others.map Subtype.val) rest := by
  induction others generalizing n first with
  | nil =>
      cases n with
      | zero => simp at hn
      | succ n =>
          refine (Reads.advance _ _).bind (Reads.eat_else (by simp) ?_)
          exact (Reads.expectPunct _ _).bind (Reads.pure _ _)
  | cons second others ih =>
      cases n with
      | zero => simp at hn
      | succ n =>
          have hothers := ih (Nat.lt_of_succ_lt_succ hn) second
          refine (Reads.advance _ _).bind (Reads.eat_then (Reads.eat_else (by simp) ?_))
          exact hothers.bind (Reads.pure _ _)

theorem reads_parseParent (parent : Option Reference)
    (hrest : rest.head? ≠ some (.punct .colon)) :
    Reads Definition.parseParent (parentTokens parent ++ rest) (parent.map Reference.text)
      rest := by
  cases parent with
  | none => exact Reads.eat_else hrest (Reads.pure none rest)
  | some parent => exact Reads.eat_then (parent.reads_token rest).map

namespace Definition

variable {isPartial : Bool} {extAttrs : List ExtAttr} {d : Definition} {after : List TokenKind}

/-- A word that tells the kind of definition is read before the rest of it. -/
theorem reads_parseBody {word : String} (p : Parser Definition)
    (hword : ∀ s : TokenStream, s.peek = some (.ident word) →
      parseBody isPartial extAttrs s = p s.drop)
    (h : Reads p kinds d after) :
    Reads (parseBody isPartial extAttrs) (.ident word :: kinds) d after := by
  intro s hs
  have hpeek : s.peek = some (.ident word) := by rw [Reads.head?_kinds, hs]; rfl
  rw [hword s hpeek]
  exact h s.drop (by rw [Reads.kinds_drop, hs]; rfl)

/-- An escaped name is no word for a kind of definition, so the second word tells. -/
theorem reads_parseBody_includes (target : PlainName)
    (h : Reads parseIncludes (target.escaped :: .ident "includes" :: kinds) d after) :
    Reads (parseBody false extAttrs) (target.escaped :: .ident "includes" :: kinds) d after := by
  intro s hs
  have hpeek : s.peek = some (.ident ("_" ++ target.text)) := by rw [Reads.head?_kinds, hs]; rfl
  have hsecond : s.peekSecond = some (.ident "includes") := by
    have htail := congrArg (fun kinds => kinds.tail.head?) hs
    simpa [TokenStream.peekSecond, TokenStream.kinds, List.map_tail] using htail
  have hne : ∀ word ∈ ["interface", "dictionary", "enum", "typedef", "callback", "namespace"],
      "_" ++ target.text ≠ word := by
    have hhead : ∀ word ∈ ["interface", "dictionary", "enum", "typedef", "callback", "namespace"],
        word.toList.head? ≠ some '_' := by decide
    exact fun word hword heq => target.escaped_ne (hhead word hword) (congrArg TokenKind.ident heq)
  obtain ⟨s', hs', hafter⟩ := h s hs
  refine ⟨s', ?_, hafter⟩
  simp_all [parseBody]

/-- A definition with its extended attributes, the word for a partial one and its semicolon. -/
theorem reads_parse (es : List ExtAttrForm) (isPartial : Bool)
    (hbracket : kinds.head? ≠ some (.punct .openBracket))
    (hpartial : kinds.head? ≠ some (.ident "partial"))
    (h : Reads (parseBody isPartial (es.map ExtAttrForm.extAttr)) kinds d
      (.punct .semicolon :: rest)) :
    Reads parse (ExtAttrForm.listTokens es ++ (keywordIf isPartial "partial" ++ kinds)) d rest := by
  refine (ExtAttrForm.reads_parseList es ?_).bind ?_
  · cases isPartial with
    | true => simp [keywordIf]
    | false => exact hbracket
  · exact (reads_keywordIf isPartial hpartial).bind
      (h.bind ((Reads.expectPunct _ _).bind (Reads.pure _ _)))

end Definition

theorem DefinitionForm.reads_parse (f : DefinitionForm) (rest : List TokenKind) :
    Reads Definition.parse (f.tokens ++ rest) f.definition rest := by
  cases f with
  | interface name isPartial parent members extAttrs =>
      simp only [tokens, headTokens, List.append_assoc, List.cons_append, List.nil_append]
      apply Definition.reads_parse extAttrs isPartial (by simp) (by simp)
      apply Definition.reads_parseBody
        (Definition.parseInterface isPartial (extAttrs.map ExtAttrForm.extAttr))
      · intro s hs
        simp [Definition.parseBody, hs]
      · refine Reads.eat_else (by simpa using name.escaped_ne (by decide)) ?_
        refine (name.reads_escaped _).bind ?_
        refine (reads_parseParent parent (by simp [bodyTokens])).bind ?_
        exact (MemberForm.reads_parseBody members _).bind (Reads.pure _ _)
  | mixin name isPartial members =>
      simp only [tokens, headTokens, List.append_assoc, List.cons_append, List.nil_append]
      apply Definition.reads_parse [] isPartial (by simp) (by simp)
      apply Definition.reads_parseBody (Definition.parseInterface isPartial [])
      · intro s hs
        simp [Definition.parseBody, hs]
      · refine Reads.eat_then ((name.reads_escaped _).bind ?_)
        exact (MemberForm.reads_parseBody members _).bind (Reads.pure _ _)
  | dictionary name isPartial parent fields =>
      simp only [tokens, headTokens, List.append_assoc, List.cons_append, List.nil_append]
      apply Definition.reads_parse [] isPartial (by simp) (by simp)
      apply Definition.reads_parseBody (Definition.parseDictionary isPartial)
      · intro s hs
        simp [Definition.parseBody, hs]
      · refine (name.reads_escaped _).bind ?_
        refine (reads_parseParent parent (by simp [bodyTokens])).bind ?_
        exact (FieldForm.reads_parseBody fields _).bind (Reads.pure _ _)
  | enumeration name first others =>
      simp only [tokens, headTokens, List.append_assoc, List.cons_append, List.nil_append]
      apply Definition.reads_parse [] false (by simp) (by simp)
      apply Definition.reads_parseBody Definition.parseEnum
      · intro s hs
        simp [Definition.parseBody, hs]
      · refine (name.reads_escaped _).bind ((Reads.expectPunct _ _).bind ?_)
        refine (Reads.remaining _).bind ((reads_parseEnumValues others ?_ first _).bind
          (Reads.pure _ _))
        have hlength := Reads.length_le_length_flatMap
          (fun v : QuotedText => List.cons_ne_nil (.punct .comma) [.text v.val]) others
        simp only [List.length_append, List.length_cons]
        omega
  | typedef name type =>
      simp only [tokens, headTokens, List.append_assoc, List.cons_append, List.nil_append]
      apply Definition.reads_parse [] false (by simp) (by simp)
      apply Definition.reads_parseBody Definition.parseTypedef
      · intro s hs
        simp [Definition.parseBody, hs]
      · refine (ExtAttr.reads_no_list (type.head?_ne_punct (by decide))).bind ?_
        exact (type.reads_parse_escaped name _).bind ((name.reads_escaped _).bind (Reads.pure _ _))
  | includes target included =>
      simp only [tokens, headTokens, List.cons_append, List.nil_append]
      apply Definition.reads_parse [] false (by simp [PlainName.escaped])
        (by simpa using target.escaped_ne (by decide))
      apply Definition.reads_parseBody_includes target
      refine (target.reads_escaped _).bind ((Reads.advance _ _).bind ?_)
      exact (included.reads_token _).bind (Reads.pure _ _)

/-- Definitions one after the other, up to the end of the input. -/
theorem DefinitionForm.reads_parseAll (fs : List DefinitionForm) {n : Nat} (hn : fs.length ≤ n) :
    Reads (Definition.parseAll n) (fs.flatMap tokens) (fs.map definition) [] := by
  induction fs generalizing n with
  | nil =>
      cases n with
      | zero => exact Reads.pure [] []
      | succ n => exact (Reads.peek []).bind (Reads.pure [] [])
  | cons f fs ih =>
      cases n with
      | zero => simp at hn
      | succ n =>
          have hpeek : ¬(f.tokens ++ fs.flatMap tokens).head?.isNone = true := by
            rw [Option.isNone_iff_eq_none, List.head?_eq_none_iff, tokens]
            simp
          rw [List.flatMap_cons]
          refine (Reads.peek _).bind ?_
          rw [if_neg hpeek]
          exact (f.reads_parse _).bind ((ih (Nat.le_of_succ_le_succ hn)).bind (Reads.pure _ _))

end IdlBindings
