import IdlBindings.Proofs.Definition.FormParser

/-!
# Texts and trees of the same definitions

The two ways of writing a document lead to the same definitions. Every form is written as a text, in
any layout of its tokens, and as a tree, with marks for the end of a file anywhere; reading either
gives the definitions that the forms stand for.

## Main definitions

* `documentText`: the tokens of forms with spaces between them
-/
namespace IdlBindings

/-! ## Nodes -/

theorem TypeName.text_isEmpty (n : TypeName) : n.text.isEmpty = false := by
  have hfold : ∀ (sizes : List String) (text : String), text ≠ "" →
      sizes.foldl (fun text size => text ++ " " ++ size) text ≠ "" := by
    intro sizes
    induction sizes with
    | nil => exact fun text htext => htext
    | cons size sizes ih =>
        intro text htext
        apply ih
        simp
  have hword : n.word.val ≠ "" := by
    intro hempty
    have hidentifier := n.word.property
    rw [hempty] at hidentifier
    revert hidentifier
    decide
  rw [text]
  simpa using hfold n.sizes n.word.val hword

mutual

@[simp] theorem TypeForm.toType_node (t : TypeForm) : t.node.toType = t.type := by
  match t with
  | .name n nullable => rfl
  | .generic n params nullable =>
      have hparams := params.toTypes_nodes
      -- Only a node with a single parameter looks at the name of the wrapper.
      cases htypes : params.types with
      | nil =>
          simp [TypeForm.node, TypeNode.toType, hparams, htypes, TypeForm.type, IdlType.wrap,
            IdlType.nullableIf]
      | cons first others =>
          cases others <;>
            simp [TypeForm.node, TypeNode.toType, hparams, htypes, TypeForm.type, IdlType.wrap,
              IdlType.nullableIf, n.text_isEmpty]
  | .union parts nullable =>
      have hparts := parts.toTypes_nodes
      simp [TypeForm.node, TypeNode.toType, hparts, TypeForm.type, IdlType.nullableIf]

theorem TypeForms.toTypes_nodes (ts : TypeForms) : TypeNode.toTypes ts.nodes = ts.types := by
  match ts with
  | .one t => simp [TypeForms.nodes, TypeForms.types, TypeNode.toTypes, t.toType_node]
  | .cons t ts =>
      simp [TypeForms.nodes, TypeForms.types, TypeNode.toTypes, t.toType_node, ts.toTypes_nodes]

end

@[simp] theorem DefaultForm.text_node (d : DefaultForm) : d.node.text = d.value := by
  cases d with
  | word w =>
      rw [node, wordNode, value]
      split_ifs with htrue hfalse hnull hnan hinfinity
      · exact htrue.symm
      · exact hfalse.symm
      · exact hnull.symm
      · exact hnan.symm
      · exact hinfinity.symm
      · rfl
  | _ => rfl

@[simp] theorem RhsForm.rhsText_node (rhs : RhsForm) : rhsText rhs.node = rhs.value := by
  cases rhs with
  | word w => rfl
  | words ws =>
      have hitems : ∀ ws : List Word,
          rhsItems (ws.map fun w => .object [("value", .string w.val)]) = ws.map Subtype.val := by
        intro ws
        induction ws with
        | nil => rfl
        | cons w ws ih =>
            rw [List.map_cons, rhsItems, ih]
            rfl
      rw [node, rhsText, hitems, value]

@[simp] theorem ExtAttrForm.toExtAttr_node (e : ExtAttrForm) : e.node.toExtAttr = e.extAttr := by
  obtain ⟨name, rhs⟩ := e
  cases rhs with
  | none => rfl
  | some rhs => simp [node, extAttr, ExtAttrNode.toExtAttr]

@[simp] theorem ArgumentForm.toArgument_node (a : ArgumentForm) :
    a.node.toArgument = a.argument := by
  cases a with
  | required type name => simp [node, argument, ArgumentNode.toArgument]
  | optional type name default =>
      cases default <;> simp [node, argument, ArgumentNode.toArgument]
  | variadic type name => simp [node, argument, ArgumentNode.toArgument]

theorem PlainName.text_isEmpty (n : PlainName) : n.text.isEmpty = false := by
  obtain ⟨c, cs, htext, _⟩ := n.exists_toList
  rw [Bool.eq_false_iff]
  intro hempty
  rw [String.isEmpty_iff.mp hempty] at htext
  cases htext

@[simp] theorem MemberForm.toMember?_node (x : MemberForm) : x.node.toMember? = some x.member := by
  cases x with
  | operation isStatic result name arguments extAttrs =>
      have hnone : (resultType none).type.isUndefined = true := by decide
      rcases result with _ | ⟨type, hvalue⟩ <;> cases isStatic <;>
        simp_all [node, MemberNode.toMember?, special, isBoundSpecial, name.text_isEmpty, member,
          resultType, Option.filter]
  | «attribute» isStatic readonly type name extAttrs =>
      cases isStatic <;>
        simp [node, MemberNode.toMember?, special, isBoundSpecial, member]
  | constructor arguments extAttrs =>
      simp [node, MemberNode.toMember?, member]

@[simp] theorem FieldForm.toField_node (f : FieldForm) : f.node.toField = f.field := by
  obtain ⟨name, type, required, default⟩ := f
  cases default <;> simp [node, field, FieldNode.toField]

theorem DefinitionForm.toDefinition?_node (f : DefinitionForm) :
    f.node.toDefinition? = some f.definition := by
  cases f with
  | interface name isPartial parent members extAttrs =>
      simp [node, definition, DefinitionNode.toDefinition?, List.filterMap_map, Function.comp_def]
  | mixin name isPartial members =>
      simp [node, definition, DefinitionNode.toDefinition?, List.filterMap_map]
  | dictionary name isPartial parent fields =>
      simp [node, definition, DefinitionNode.toDefinition?]
  | enumeration name first others => rfl
  | typedef name type => simp [node, definition, DefinitionNode.toDefinition?]
  | includes target included => rfl

/-- The mark for the end of a file. -/
def DefinitionNode.isEndOfFile : DefinitionNode → Bool
  | endOfFile => true
  | _ => false

/-- Marks for the end of a file do not count. -/
theorem Definition.listOfNodes_filter (nodes : List DefinitionNode) :
    listOfNodes (nodes.filter fun n => !n.isEndOfFile) = listOfNodes nodes := by
  rw [listOfNodes, listOfNodes, List.filterMap_filter]
  apply List.filterMap_congr
  intro n _
  cases n <;> rfl

/-! ## Writable tokens -/

section Writable

open TokenKind

theorem PlainName.isWritable_ident (n : PlainName) : (ident n.text).isWritable = true := by
  obtain ⟨c, cs, htext, halpha, hcs⟩ := n.exists_toList
  have hstart : isIdentStart c = true := by simp [isIdentStart, halpha]
  simp only [isWritable, isIdentifier, htext, hstart, hcs, Bool.and_self]

@[simp] theorem PlainName.isWritable_escaped (n : PlainName) : n.escaped.isWritable = true := by
  obtain ⟨c, cs, htext, halpha, hcs⟩ := n.exists_toList
  have hpart : isIdentPart c = true := isIdentPart_of_isIdentStart (by simp [isIdentStart, halpha])
  have hunderscore : isIdentStart '_' = true := by decide
  have hescaped : ("_" ++ n.text).toList = '_' :: c :: cs := by simp [htext]
  simp only [escaped, isWritable, isIdentifier, hescaped, hunderscore, List.all_cons, hpart, hcs,
    Bool.and_self]

@[simp] theorem Reference.isWritable_token (r : Reference) : r.token.isWritable = true := by
  rw [token]
  split
  · exact r.name.isWritable_escaped
  · exact r.name.isWritable_ident

@[simp] theorem isWritable_word (w : Word) : (ident w.val).isWritable = true := w.property

@[simp] theorem isWritable_quoted (value : QuotedText) :
    (TokenKind.text value.val).isWritable = true :=
  value.property

@[simp] theorem isWritable_punct (mark : Punct) : (punct mark).isWritable = true := rfl

theorem isWritable_sizeWord {size : String} (hsize : IdlType.isSizeWord size = true) :
    (ident size).isWritable = true := by
  simp only [IdlType.isSizeWord, Bool.or_eq_true, beq_iff_eq] at hsize
  rcases hsize with ((rfl | rfl) | rfl) | rfl <;> decide

@[simp] theorem TypeName.areWritable_tokens (n : TypeName) : areWritable n.tokens = true := by
  have hsizes : areWritable (n.sizes.map ident) = true := by
    rw [areWritable, List.all_map, List.all_eq_true]
    exact fun size hsize => isWritable_sizeWord (n.isSizeWord_sizes size hsize)
  simp [tokens, hsizes]

@[simp] theorem areWritable_questionTokens (nullable : Bool) :
    areWritable (questionTokens nullable) = true := by
  cases nullable <;> rfl

mutual

@[simp] theorem TypeForm.areWritable_tokens (t : TypeForm) : areWritable t.tokens = true := by
  match t with
  | .name n nullable => simp [TypeForm.tokens]
  | .generic n params nullable =>
      simp [TypeForm.tokens, params.areWritable_tokens (isWritable_punct .comma)]
  | .union parts nullable =>
      have hor : (ident "or").isWritable = true := by decide
      simp [TypeForm.tokens, parts.areWritable_tokens hor]

theorem TypeForms.areWritable_tokens (ts : TypeForms) {separator : TokenKind}
    (hseparator : separator.isWritable = true) : areWritable (ts.tokens separator) = true := by
  match ts with
  | .one t => simp [TypeForms.tokens, t.areWritable_tokens]
  | .cons t ts =>
      simp [TypeForms.tokens, t.areWritable_tokens, hseparator, ts.areWritable_tokens hseparator]

end

@[simp] theorem areWritable_defaultTokens (default : Option DefaultForm) :
    areWritable (defaultTokens default) = true := by
  cases default with
  | none => rfl
  | some d =>
      rw [defaultTokens, areWritable_cons, isWritable_punct, Bool.true_and]
      cases d with
      | text value => simp [DefaultForm.tokens]
      | number digits => simp [DefaultForm.tokens, isWritable, digits.property]
      | word w => simp [DefaultForm.tokens]
      | negativeInfinity => decide
      | emptyList => rfl
      | emptyDictionary => rfl

@[simp] theorem RhsForm.areWritable_wordTokens (ws : List Word) :
    areWritable (wordTokens ws) = true := by
  fun_induction wordTokens ws with
  | case1 => rfl
  | case2 w => simp
  | case3 w ws _ ih => simp [ih]

@[simp] theorem ExtAttrForm.areWritable_tokens (e : ExtAttrForm) : areWritable e.tokens = true := by
  obtain ⟨name, rhs⟩ := e
  rcases rhs with _ | rhs
  · simp [tokens]
  · cases rhs <;> simp [tokens, RhsForm.tokens]

/-- Items after commas. -/
theorem areWritable_commaTokens {α : Type} {tokens : α → List TokenKind}
    (htokens : ∀ x, areWritable (tokens x) = true) (xs : List α) :
    areWritable (xs.flatMap fun x => punct .comma :: tokens x) = true :=
  areWritable_flatMap (fun x => by simp [htokens x]) xs

@[simp] theorem ExtAttrForm.areWritable_listTokens (es : List ExtAttrForm) :
    areWritable (listTokens es) = true := by
  cases es with
  | nil => rfl
  | cons e es => simp [listTokens, areWritable_commaTokens areWritable_tokens es]

@[simp] theorem ArgumentForm.areWritable_tokens (a : ArgumentForm) :
    areWritable a.tokens = true := by
  cases a with
  | required type name => simp [tokens]
  | optional type name default => simp [tokens, show (ident "optional").isWritable = true by decide]
  | variadic type name => simp [tokens, show ellipsis.isWritable = true from rfl]

@[simp] theorem ArgumentForm.areWritable_listTokens (as : List ArgumentForm) :
    areWritable (listTokens as) = true := by
  cases as with
  | nil => rfl
  | cons a as => simp [listTokens, areWritable_commaTokens areWritable_tokens as]

theorem areWritable_keywordIf (present : Bool) {word : String}
    (hword : (ident word).isWritable = true) : areWritable (keywordIf present word) = true := by
  cases present with
  | false => rfl
  | true => simp [keywordIf, hword]

@[simp] theorem MemberForm.areWritable_tokens (m : MemberForm) : areWritable m.tokens = true := by
  have hstatic (present : Bool) : areWritable (keywordIf present "static") = true :=
    areWritable_keywordIf present (by decide)
  cases m with
  | operation isStatic result name arguments extAttrs => simp [tokens, hstatic]
  | «attribute» isStatic readonly type name extAttrs =>
      have hreadonly : areWritable (keywordIf readonly "readonly") = true :=
        areWritable_keywordIf readonly (by decide)
      simp [tokens, hstatic, hreadonly, show (ident "attribute").isWritable = true by decide]
  | constructor arguments extAttrs =>
      simp [tokens, show (ident "constructor").isWritable = true by decide]

@[simp] theorem FieldForm.areWritable_tokens (f : FieldForm) : areWritable f.tokens = true := by
  have hrequired : areWritable (keywordIf f.required "required") = true :=
    areWritable_keywordIf f.required (by decide)
  simp [tokens, hrequired]

@[simp] theorem areWritable_parentTokens (parent : Option Reference) :
    areWritable (parentTokens parent) = true := by
  cases parent <;> simp [parentTokens]

theorem areWritable_bodyTokens {α : Type} {tokens : α → List TokenKind}
    (htokens : ∀ x, areWritable (tokens x) = true) (items : List α) :
    areWritable (bodyTokens tokens items) = true := by
  simp [bodyTokens, areWritable_flatMap htokens items]

/-- Every form can be written. -/
theorem DefinitionForm.areWritable_tokens (f : DefinitionForm) : areWritable f.tokens = true := by
  have hpartial (present : Bool) : areWritable (keywordIf present "partial") = true :=
    areWritable_keywordIf present (by decide)
  have hinterface : (ident "interface").isWritable = true := by decide
  have hbody := areWritable_bodyTokens MemberForm.areWritable_tokens
  cases f with
  | interface name isPartial parent members extAttrs =>
      simp [tokens, headTokens, hpartial, hinterface, hbody]
  | mixin name isPartial members =>
      simp [tokens, headTokens, hpartial, hinterface, hbody,
        show (ident "mixin").isWritable = true by decide]
  | dictionary name isPartial parent fields =>
      have hfields := areWritable_bodyTokens FieldForm.areWritable_tokens fields
      simp [tokens, headTokens, hpartial, hfields,
        show (ident "dictionary").isWritable = true by decide]
  | enumeration name first others =>
      have hothers : areWritable (others.flatMap fun v => [punct .comma, text v.val]) = true :=
        areWritable_flatMap (fun v => by simp) others
      have henum : (ident "enum").isWritable = true := by decide
      simp only [tokens, headTokens, List.cons_append, areWritable_cons, areWritable_append,
        areWritable_nil, hothers, henum, name.isWritable_escaped, isWritable_punct,
        isWritable_quoted, Bool.and_self]
  | typedef name type =>
      simp [tokens, headTokens, show (ident "typedef").isWritable = true by decide]
  | includes target included =>
      simp [tokens, headTokens, show (ident "includes").isWritable = true by decide]

end Writable

/-! ## Texts -/

/-- The tokens of forms with spaces between them. -/
def documentText (forms : List DefinitionForm) : String :=
  String.ofList (TokenKind.spaced (forms.flatMap DefinitionForm.tokens))

/-- **Reading a layout.** A text is read as the forms that it is a layout of. -/
theorem Definition.listOfText_of_layout {forms : List DefinitionForm} {cs : List Char}
    (hcs : Layout (forms.flatMap DefinitionForm.tokens) cs) :
    listOfText (String.ofList cs) = .ok (forms.map DefinitionForm.definition) := by
  obtain ⟨s, hlex, hkinds⟩ := TokenStream.ofText_of_layout hcs
  -- Every definition has a token, so the number of tokens bounds the number of definitions.
  have hlength : forms.length ≤ s.tokens.length := by
    have htokens : ∀ f : DefinitionForm, f.tokens ≠ [] := by simp [DefinitionForm.tokens]
    have hle := Parser.Reads.length_le_length_flatMap htokens forms
    rwa [← hkinds, TokenStream.kinds, List.length_map] at hle
  obtain ⟨s', hparse, _⟩ := DefinitionForm.reads_parseAll forms hlength s hkinds
  simp only [listOfText, hlex, listOfTokens, hparse]
  rfl

/-- **Reading nodes.** Nodes are read as the forms that they are the nodes of, whatever marks for
the end of a file stand among them. -/
theorem Definition.listOfNodes_of_forms {forms : List DefinitionForm} {nodes : List DefinitionNode}
    (hnodes : nodes.filter (fun n => !n.isEndOfFile) = forms.map DefinitionForm.node) :
    listOfNodes nodes = forms.map DefinitionForm.definition := by
  rw [← listOfNodes_filter, hnodes, listOfNodes, List.filterMap_map]
  simp [DefinitionForm.toDefinition?_node]

/-- **Texts and trees agree.** Every list of forms is read back from each layout of its tokens,
among them the one with spaces, and from its nodes with any marks for the end of a file among
them. -/
theorem frontends_agree (forms : List DefinitionForm) :
    (∀ cs, Layout (forms.flatMap DefinitionForm.tokens) cs →
      Definition.listOfText (String.ofList cs) = .ok (forms.map DefinitionForm.definition)) ∧
      Definition.listOfText (documentText forms) = .ok (forms.map DefinitionForm.definition) ∧
      ∀ nodes : List DefinitionNode,
        nodes.filter (fun n => !n.isEndOfFile) = forms.map DefinitionForm.node →
          Definition.listOfNodes nodes = forms.map DefinitionForm.definition := by
  refine ⟨fun cs hcs => Definition.listOfText_of_layout hcs, ?_,
    fun nodes hnodes => Definition.listOfNodes_of_forms hnodes⟩
  have hwritable := TokenKind.areWritable_flatMap DefinitionForm.areWritable_tokens forms
  exact Definition.listOfText_of_layout (Layout.of_spaced hwritable)

/-- An interface with a nested type, a default value and extended attributes, and an enumeration
whose name is a keyword. -/
def shelfForms : List DefinitionForm :=
  [.interface ⟨"Shelf", by decide⟩ true (some ⟨⟨"Base", by decide⟩, false⟩)
    [.operation true none ⟨"put", by decide⟩
      [.required (.union (.cons
          (.name ⟨⟨"unsigned", by decide⟩, ["long"], by decide, by decide, by decide⟩ false)
          (.one (.generic ⟨⟨"sequence", by decide⟩, [], by decide, by decide, by decide⟩
            (.one (.name ⟨⟨"DOMString", by decide⟩, [], by decide, by decide, by decide⟩ true))
            false))) true) ⟨"item", by decide⟩,
        .optional (.name ⟨⟨"long", by decide⟩, [], by decide, by decide, by decide⟩ false)
          ⟨"at", by decide⟩ (some (.number ⟨"-4", by decide⟩))]
      [⟨⟨⟨"Exposed", by decide⟩, true⟩,
        some (.words [⟨"Window", by decide⟩, ⟨"Worker", by decide⟩])⟩]] [],
    .enumeration ⟨"enum", by decide⟩ ⟨"a b", by decide⟩ []]

/-- The last definition of `shelfForms`, with a comment and without the blanks that are not
needed. -/
theorem Layout.tight_enumeration :
    Layout ((shelfForms.drop 1).flatMap DefinitionForm.tokens)
      "enum _enum\x7b\"a b\"\x7d;//\n".toList := by
  have hend : Gap "//\n".toList := @Gap.lineComment [] [] (by decide) .nil
  have hspace : Gap [' '] := .blank (by decide) .nil
  have hclose : Layout [.punct .closeBrace, .punct .semicolon] "\x7d;//\n".toList :=
    .cons .nil rfl (.cons .nil rfl (.nil hend) (by rintro c ⟨⟩; rfl)) (by rintro c ⟨⟩; rfl)
  have hbody : Layout [.punct .openBrace, .text "a b", .punct .closeBrace, .punct .semicolon]
      "\x7b\"a b\"\x7d;//\n".toList :=
    .cons .nil rfl (.cons .nil (by decide) hclose (by rintro c ⟨⟩; rfl)) (by rintro c ⟨⟩; rfl)
  exact .cons .nil (by decide)
    (.cons hspace (by decide) hbody (by rintro c ⟨⟩; rfl)) (by rintro c ⟨⟩; rfl)

theorem frontends_agree_shelf :
    Layout ((shelfForms.drop 1).flatMap DefinitionForm.tokens)
        "enum _enum\x7b\"a b\"\x7d;//\n".toList ∧
      Definition.listOfText "enum _enum\x7b\"a b\"\x7d;//\n" =
        .ok [.enumeration ⟨"enum", ["a b"]⟩] ∧
      Definition.listOfText (" partial interface _Shelf : Base \x7b" ++
          " [ _Exposed = ( Window , Worker ) ] static undefined _put (" ++
          " ( unsigned long or sequence < DOMString ? > ) ? _item , optional long _at = -4" ++
          " ) ; \x7d ; enum _enum \x7b \"a b\" \x7d ; ") =
        .ok (shelfForms.map DefinitionForm.definition) ∧
      Definition.listOfNodes (.endOfFile :: shelfForms.flatMap fun f => [f.node, .endOfFile]) =
        [.interface ⟨"Shelf", true, some "Base",
          [.operation ⟨"put",
            [⟨"item", .named "(unsigned long or sequence<DOMString?>)?", false, false, none⟩,
              ⟨"at", .named "long", true, false, some "-4"⟩],
            none, true, [⟨"Exposed", some "(Window,Worker)"⟩]⟩], []⟩,
          .enumeration ⟨"enum", ["a b"]⟩] := by
  refine ⟨Layout.tight_enumeration, ?_, ?_, ?_⟩
  · have h := (frontends_agree (shelfForms.drop 1)).1 _ Layout.tight_enumeration
    rwa [String.ofList_toList] at h
  · refine Eq.trans (congrArg Definition.listOfText ?_) (frontends_agree shelfForms).2.1
    decide +kernel
  · exact (frontends_agree shelfForms).2.2 _ rfl

/-- A text literal ends on its line and a number has no sign inside, so these default values are
read from a tree only. -/
theorem defaults_not_read_from_text :
    Definition.listOfText "dictionary _D \x7b DOMString _x = \"a\nb\"; \x7d;" =
        .error ⟨.lexical .openString, ⟨31, 1, 32⟩⟩ ∧
      Definition.listOfNodes [.dictionary ⟨"D", false, none, [⟨"x", ⟨"", false, false,
          .name "DOMString"⟩, false, some ⟨"string", .string "a\nb", none⟩⟩], []⟩] =
        [.dictionary ⟨"D", false, none, [⟨"x", .named "DOMString", false, some "\"a\nb\""⟩]⟩] ∧
      Definition.listOfText "dictionary _D \x7b double _x = 1e-5; \x7d;" =
        .error ⟨.expectedPunct .semicolon (some (.number "-5")), ⟨30, 1, 31⟩⟩ ∧
      Definition.listOfNodes [.dictionary ⟨"D", false, none, [⟨"x", ⟨"", false, false,
          .name "double"⟩, false, some ⟨"number", .string "1e-5", none⟩⟩], []⟩] =
        [.dictionary ⟨"D", false, none, [⟨"x", .named "double", false, some "1e-5"⟩]⟩] := by
  refine ⟨?_, rfl, ?_, rfl⟩
  · decide +kernel
  · decide +kernel

end IdlBindings
