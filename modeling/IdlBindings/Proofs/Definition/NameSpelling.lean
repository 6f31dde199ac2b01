import IdlBindings.Proofs.Definition.FaultPlaces
import IdlBindings.Proofs.Definition.FormParser
import IdlBindings.Proofs.Definition.Lookahead
import IdlBindings.Proofs.Model.Resolution

/-!
# Names where they are defined and where they are used

A word with underscores in front escapes a name. Where a definition is named the underscores are
dropped, and where a type refers to a name they are kept. So a reference that is spelled like the
name of a definition refers to the definition exactly if the spelling is no escape. An escaped
reference is found under no name at all, since no name starts with an underscore.

## Main definitions

* `Parser.Ensures`: what every result of a parser is like
* `NamePlace`: the word that names a definition
* `Model.Finds`: resolution of a type ends at an entry of the model
-/
namespace IdlBindings

namespace Parser

/-! ## Results of runs -/

/-- Every result on tokens of the kinds `before` is as `Q` says, with what it leaves. -/
def Ensures {α : Type} (p : Parser α) (before : List TokenKind) (Q : α → List TokenKind → Prop) :
    Prop :=
  ∀ s a s', s.kinds = before → p s = .ok (a, s') → Q a s'.kinds

namespace Ensures

variable {α β : Type} {p : Parser α} {f : α → Parser β} {a : α}
  {before between : List TokenKind} {R : α → List TokenKind → Prop} {Q : β → List TokenKind → Prop}

theorem any : Ensures p before fun _ _ => True := fun _ _ _ _ _ => trivial

theorem pure (ha : R a before) : Ensures (pure a) before R := by
  intro s a' s' hs hrun
  obtain ⟨rfl, rfl⟩ := Prod.mk.inj (Except.ok.inj hrun)
  rwa [hs]

theorem bind (hp : Ensures p before R) (hf : ∀ a after, R a after → Ensures (f a) after Q) :
    Ensures (p >>= f) before Q := by
  intro s b s'' hs hrun
  obtain ⟨a, s', hps, hfs⟩ := run_bind_eq_ok_iff.mp hrun
  exact hf a s'.kinds (hp s a s' hs hps) s' b s'' rfl hfs

/-- What is read in a known way goes before. -/
theorem reads_bind (hp : Reads p before a between) (hf : Ensures (f a) between Q) :
    Ensures (p >>= f) before Q := by
  intro s b s'' hs hrun
  obtain ⟨s', hps, hs'⟩ := hp s hs
  rw [run_bind, hps] at hrun
  exact hf s' b s'' hs' hrun

/-- What a parser leaves is the end of what it was given. -/
theorem of_located (hp : ∀ s, s.kinds = before → Located s (p s)) :
    Ensures p before fun _ after => ∃ taken, before = taken ++ after := by
  intro s a s' hs hrun
  have hleft := hp s hs
  rw [hrun] at hleft
  obtain ⟨taken, htokens⟩ := hleft.suffix
  exact ⟨taken.map Token.kind, by rw [← hs, TokenStream.kinds, ← htokens, List.map_append]; rfl⟩

/-- The two branches of looking for a token. -/
theorem eat_ite {kind : TokenKind} {yes no : Parser α}
    (hyes : ∀ after, before = kind :: after → Ensures yes after R) (hno : Ensures no before R) :
    Ensures (eat kind >>= fun found => if found = true then yes else no) before R := by
  by_cases hhead : before.head? = some kind
  · obtain ⟨after, rfl⟩ := List.head?_eq_some_iff.mp hhead
    exact reads_bind (Reads.eat_head kind after) (by simpa using hyes after rfl)
  · exact reads_bind (Reads.eat_other hhead) (by simpa using hno)

theorem expectIdent :
    Ensures expectIdent before fun name after =>
      ∃ word, before = .ident word :: after ∧ name = declaredName word := by
  rintro s name s' rfl hrun
  exact Consumes.exists_word_of_expectIdent hrun

theorem expectPunct {mark : Punct} :
    Ensures (expectPunct mark) before fun _ after => before = .punct mark :: after := by
  rintro s u s' rfl hrun
  obtain ⟨_, _, hkinds, rfl⟩ := Consumes.expectPunct s u s' hrun
  exact hkinds

end Ensures
end Parser

open IdlBindings.Parser

/-! ## Where a definition has its name -/

namespace Definition

variable {isPartial : Bool} {extAttrs : List ExtAttr} {before : List TokenKind}

/-- The tokens up to `after` start with the word for the name of a definition. -/
def NamedFirst (before after : List TokenKind) (d : Definition) : Prop :=
  ∀ k n, d.place? = some (k, n) →
    ∃ word more, before = .ident word :: (more ++ after) ∧ n = declaredName word

theorem ensures_parseInterface :
    Ensures (parseInterface isPartial extAttrs) before fun d after =>
      NamedFirst before after d := by
  refine Ensures.eat_ite (fun after _ => ?_) (Ensures.expectIdent.bind ?_)
  · refine Ensures.any.bind fun name _ _ => Ensures.any.bind fun members _ _ => Ensures.pure ?_
    simp [NamedFirst, place?]
  · rintro name _ ⟨word, rfl, rfl⟩
    refine (Ensures.of_located fun s _ => located_parseParent s).bind ?_
    rintro parent _ ⟨taken, rfl⟩
    refine (Ensures.of_located fun s _ => Member.located_parseBody s).bind ?_
    rintro members after ⟨body, rfl⟩
    refine Ensures.pure ?_
    rintro _ _ ⟨⟩
    exact ⟨word, taken ++ body, by rw [List.append_assoc], rfl⟩

theorem ensures_parseDictionary :
    Ensures (parseDictionary isPartial) before fun d after => NamedFirst before after d := by
  refine Ensures.expectIdent.bind ?_
  rintro name _ ⟨word, rfl, rfl⟩
  refine (Ensures.of_located fun s _ => located_parseParent s).bind ?_
  rintro parent _ ⟨taken, rfl⟩
  refine (Ensures.of_located fun s _ => Field.located_parseBody s).bind ?_
  rintro fields after ⟨body, rfl⟩
  refine Ensures.pure ?_
  rintro _ _ ⟨⟩
  exact ⟨word, taken ++ body, by rw [List.append_assoc], rfl⟩

theorem ensures_parseEnum :
    Ensures parseEnum before fun d after => NamedFirst before after d := by
  refine Ensures.expectIdent.bind ?_
  rintro name _ ⟨word, rfl, rfl⟩
  refine Ensures.expectPunct.bind ?_
  rintro _ between rfl
  have hvalues : Ensures (parseEnumValues between.length) between fun _ after =>
      ∃ taken, between = taken ++ after := by
    refine Ensures.of_located fun s hs => located_parseEnumValues _ s ?_
    rw [← hs, length_kinds]
  refine Ensures.reads_bind (Reads.remaining between) (hvalues.bind ?_)
  rintro values after ⟨taken, rfl⟩
  refine Ensures.pure ?_
  rintro _ _ ⟨⟩
  exact ⟨word, .punct .openBrace :: taken, rfl, rfl⟩

theorem ensures_parseTypedef :
    Ensures parseTypedef before fun d after =>
      ∃ type word t, before = type ++ .ident word :: after ∧
        d = .typedef ⟨declaredName word, t⟩ := by
  refine (Ensures.of_located fun s _ => ExtAttr.located_parseList s).bind ?_
  rintro _ _ ⟨attrs, rfl⟩
  refine (Ensures.of_located fun s _ => IdlType.located_parse s).bind ?_
  rintro t _ ⟨type, rfl⟩
  refine Ensures.expectIdent.bind ?_
  rintro _ after ⟨word, rfl, rfl⟩
  exact Ensures.pure ⟨attrs ++ type, word, t, by simp, rfl⟩

/-- The words before the name of a definition, unless it is an alias. -/
def nameKeywords : List String := ["interface", "dictionary", "enum"]

/-- The tokens up to `after` name something `n`: after a first word, or at the end for an alias. -/
def NamedIn (before after : List TokenKind) (n : String) : Prop :=
  (∃ keyword ∈ nameKeywords, ∃ word more,
      before = .ident keyword :: .ident word :: (more ++ after) ∧ n = declaredName word) ∨
    ∃ type word, before = .ident "typedef" :: (type ++ .ident word :: after) ∧ n = declaredName word

theorem ensures_parseIncludes : Ensures parseIncludes before fun d _ => d.place? = none := by
  refine Ensures.any.bind fun _ _ _ => Ensures.any.bind fun _ _ _ => ?_
  exact Ensures.any.bind fun _ _ _ => Ensures.pure rfl

theorem ensures_parseBody :
    Ensures (parseBody isPartial extAttrs) before fun d after =>
      ∀ k n, d.place? = some (k, n) → NamedIn before after n := by
  rintro s d s' rfl hrun k n hplace
  have hfirst {p : Parser Definition} {keyword : String} (hpeek : s.peek = some (.ident keyword))
      (hkeyword : keyword ∈ nameKeywords)
      (hp : Ensures p s.drop.kinds fun d after => NamedFirst s.drop.kinds after d)
      (hrun : p s.drop = .ok (d, s')) : NamedIn s.kinds s'.kinds n := by
    obtain ⟨word, more, hkinds, hn⟩ := hp s.drop d s' rfl hrun k n hplace
    refine .inl ⟨keyword, hkeyword, word, more, ?_, hn⟩
    rw [Reads.kinds_of_peek hpeek, hkinds]
  unfold parseBody at hrun
  split at hrun
  · next word hpeek =>
      split at hrun
      · next hword =>
          subst hword
          exact hfirst hpeek (by decide) ensures_parseInterface hrun
      · split at hrun
        · next hword =>
            subst hword
            exact hfirst hpeek (by decide) ensures_parseDictionary hrun
        · split at hrun
          · next hword =>
              obtain ⟨rfl, _⟩ := hword
              exact hfirst hpeek (by decide) ensures_parseEnum hrun
          · split at hrun
            · next hword =>
                obtain ⟨rfl, _⟩ := hword
                obtain ⟨type, word, t, hkinds, rfl⟩ := ensures_parseTypedef s.drop d s' rfl hrun
                obtain ⟨_, rfl⟩ : EntryKind.typedef = k ∧ declaredName word = n := by
                  simpa [place?] using hplace
                refine .inr ⟨type, word, ?_, rfl⟩
                rw [Reads.kinds_of_peek hpeek, hkinds]
            · split at hrun
              · cases hrun
              · split at hrun
                · rw [ensures_parseIncludes s d s' rfl hrun] at hplace
                  cases hplace
                · cases hrun
  · cases hrun

end Definition

/-- The tokens of a definition name it with `word`: after the words for its kind, or before the
semicolon for an alias. -/
inductive NamePlace (word : String) : List TokenKind → Prop
  | afterKeyword (attrs : AttrTokens) (isPartial : Bool) {keyword : String}
      (hkeyword : keyword ∈ Definition.nameKeywords) (more : List TokenKind) :
      NamePlace word
        (attrs.kinds ++ (keywordIf isPartial "partial" ++ .ident keyword :: .ident word :: more))
  | beforeSemicolon (attrs : AttrTokens) (isPartial : Bool) (type : List TokenKind) :
      NamePlace word
        (attrs.kinds ++ (keywordIf isPartial "partial" ++
          .ident "typedef" :: (type ++ [.ident word, .punct .semicolon])))

namespace Definition

variable {d : Definition} {k : EntryKind} {n word : String}

/-- The definition can be read from tokens that name it with `word`. -/
def IsNamedBy (d : Definition) (word : String) : Prop :=
  ∃ s s' taken, Definition.parse s = .ok (d, s') ∧ s.kinds = taken ++ s'.kinds ∧
    NamePlace word taken

/-- Every definition that goes to the model is named by some word. -/
theorem exists_isNamedBy_of_parse {s s' : TokenStream} (hrun : Definition.parse s = .ok (d, s'))
    (hplace : d.place? = some (k, n)) : ∃ word, d.IsNamedBy word ∧ n = declaredName word := by
  obtain ⟨extAttrs, s₁, hattrs, hrest⟩ := run_bind_eq_ok_iff.mp hrun
  obtain ⟨isPartial, s₂, hpartial, hrest⟩ := run_bind_eq_ok_iff.mp hrest
  obtain ⟨d', s₃, hbody, hrest⟩ := run_bind_eq_ok_iff.mp hrest
  obtain ⟨_, s₄, hsemicolon, hrest⟩ := run_bind_eq_ok_iff.mp hrest
  obtain ⟨rfl, rfl⟩ := Prod.mk.inj (Except.ok.inj hrest)
  obtain ⟨attrs, _, hkinds⟩ := AttrTokens.exists_of_parseList hattrs
  obtain ⟨_, _, hkinds₁, rfl⟩ := Consumes.eat s₁ isPartial s₂ hpartial
  have hkinds₃ := Ensures.expectPunct s₃ _ s₄ rfl hsemicolon
  have hfront : s.kinds = attrs.kinds ++ (keywordIf isPartial "partial" ++ s₂.kinds) := by
    rw [hkinds, hkinds₁]
    rfl
  obtain ⟨keyword, hkeyword, word, more, hkinds₂, hn⟩ | ⟨type, word, hkinds₂, hn⟩ :=
    ensures_parseBody s₂ d' s₃ rfl hbody k n hplace
  · refine ⟨word, ⟨s, s₄, _, hrun, ?_,
      .afterKeyword attrs isPartial hkeyword (more ++ [.punct .semicolon])⟩, hn⟩
    rw [hfront, hkinds₂, hkinds₃]
    simp
  · refine ⟨word, ⟨s, s₄, _, hrun, ?_, .beforeSemicolon attrs isPartial type⟩, hn⟩
    rw [hfront, hkinds₂, hkinds₃]
    simp

/-- Definitions are read one by one. -/
theorem ensures_parseAll {before : List TokenKind} (bound : Nat) :
    Ensures (parseAll bound) before fun ds _ =>
      ∀ d ∈ ds, ∃ s s', Definition.parse s = .ok (d, s') := by
  induction bound generalizing before with
  | zero => exact Ensures.pure (by simp)
  | succ bound ih =>
      refine Ensures.any.bind fun found between _ => ?_
      split
      · exact Ensures.pure (by simp)
      · have hparse : Ensures parse between fun d _ => ∃ s s', Definition.parse s = .ok (d, s') :=
          fun s d s' _ hrun => ⟨s, s', hrun⟩
        refine hparse.bind fun first _ hfirst => ih.bind fun others _ hothers => ?_
        exact Ensures.pure (List.forall_mem_cons.mpr ⟨hfirst, hothers⟩)

theorem listOfText_of_ofText {source : String} {stream : TokenStream}
    (hstream : TokenStream.ofText source = .ok stream) :
    listOfText source = listOfTokens stream := by
  rw [listOfText, hstream]

/-- Every definition of a text that goes to the model is named by some word. -/
theorem exists_isNamedBy {source : String} {ds : List Definition}
    (hread : listOfText source = .ok ds) (hd : d ∈ ds) (hplace : d.place? = some (k, n)) :
    ∃ word, d.IsNamedBy word ∧ n = declaredName word := by
  cases hstream : TokenStream.ofText source with
  | error e => simp [listOfText, hstream] at hread
  | ok stream =>
      rw [listOfText_of_ofText hstream, listOfTokens] at hread
      cases hrun : parseAll stream.tokens.length stream with
      | error e => simp [hrun, Except.map] at hread
      | ok result =>
          obtain ⟨ds', stream'⟩ := result
          obtain rfl : ds' = ds := by simpa [hrun, Except.map] using hread
          obtain ⟨s, s', hparse⟩ := ensures_parseAll _ stream ds' stream' rfl hrun d hd
          exact exists_isNamedBy_of_parse hparse hplace

theorem ne_of_mem_nameKeywords {keyword : String} (hkeyword : keyword ∈ nameKeywords) :
    keyword ≠ "partial" ∧ keyword ≠ "typedef" := by
  revert keyword
  decide

/-- What comes before the words for its kind does not matter for the name of a definition. -/
theorem ensures_parse (attrs : AttrTokens) (isPartial : Bool) {kinds : List TokenKind}
    (hbracket : kinds.head? ≠ some (.punct .openBracket))
    (hpartial : kinds.head? ≠ some (.ident "partial")) :
    Ensures parse (attrs.kinds ++ (keywordIf isPartial "partial" ++ kinds)) fun d after =>
      ∀ k n, d.place? = some (k, n) → NamedIn kinds (.punct .semicolon :: after) n := by
  refine Ensures.reads_bind (attrs.reads_append ?_) ?_
  · cases isPartial with
    | true => simp [keywordIf]
    | false => exact hbracket
  refine Ensures.reads_bind (reads_keywordIf isPartial hpartial) ?_
  refine ensures_parseBody.bind fun d _ hnamed => Ensures.expectPunct.bind ?_
  rintro _ after rfl
  exact Ensures.pure hnamed

/-- The name of a definition is the word for it without its escape. -/
theorem IsNamedBy.name_eq (h : d.IsNamedBy word) (hplace : d.place? = some (k, n)) :
    n = declaredName word := by
  obtain ⟨s, s', taken, hrun, hkinds, hname⟩ := h
  cases hname with
  | @afterKeyword attrs isPartial keyword hkeyword more =>
      obtain ⟨hpartial, htypedef⟩ := ne_of_mem_nameKeywords hkeyword
      simp only [List.append_assoc, List.cons_append] at hkinds
      have hnamed := ensures_parse attrs isPartial (by simp) (by simpa using hpartial) s d s' hkinds
        hrun k n hplace
      obtain ⟨_, _, _, _, heq, hn⟩ | ⟨_, _, heq, _⟩ := hnamed
      · obtain ⟨_, rfl, _⟩ : _ ∧ word = _ ∧ more ++ s'.kinds = _ := by simpa using heq
        exact hn
      · exact absurd (by simpa using (List.cons.inj heq).1) htypedef
  | beforeSemicolon attrs isPartial type =>
      simp only [List.append_assoc, List.cons_append, List.nil_append] at hkinds
      have hnamed := ensures_parse attrs isPartial (by simp) (by simp) s d s' hkinds hrun k n hplace
      obtain ⟨keyword, hkeyword, _, _, heq, _⟩ | ⟨type', word', heq, rfl⟩ := hnamed
      · have htypedef := (ne_of_mem_nameKeywords hkeyword).2
        exact absurd (by simpa using (List.cons.inj heq).1.symm) htypedef
      · -- Both words are the last in front of the semicolon.
        have htokens : (type ++ [.ident word]) ++ .punct .semicolon :: s'.kinds =
            (type' ++ [.ident word']) ++ .punct .semicolon :: s'.kinds := by
          simpa using (List.cons.inj heq).2
        have hlast := congrArg List.getLast? (List.append_cancel_right htokens)
        obtain rfl : word = word' := by simpa using hlast
        rfl

end Definition

/-! ## Where a type refers to a name -/

/-- The type can be read, within whatever bound, from the word alone, extended attributes apart. -/
def IdlType.IsSpelled (t : IdlType) (word : String) : Prop :=
  ∃ bound s s' taken, IdlType.parseWith bound s = .ok (t, s') ∧ s.kinds = taken ++ s'.kinds ∧
    withoutAttrs taken = [.ident word]

theorem TypeSpelling.eq_named {word : String} {t : IdlType}
    (h : TypeSpelling [.ident word] t) : t = .named word := by
  generalize hkinds : [TokenKind.ident word] = kinds at h
  cases h with
  | name n nullable =>
      obtain ⟨w, sizes, _, _⟩ := n
      cases nullable with
      | true => simp [TypeWords.tokens, questionTokens] at hkinds
      | false =>
          obtain ⟨rfl, rfl⟩ : word = w ∧ sizes = [] := by
            simpa [TypeWords.tokens, questionTokens] using hkinds
          rfl
  | generic n nullable hfirst hothers => simp [TypeWords.tokens] at hkinds
  | union nullable hfirst hothers => simp at hkinds

/-- A reference keeps the word as it is. -/
theorem IdlType.IsSpelled.eq_named {t : IdlType} {word : String} (h : t.IsSpelled word) :
    t = .named word := by
  obtain ⟨bound, s, s', taken, hrun, hkinds, hword⟩ := h
  obtain ⟨_, taken', hkinds', kinds, hspelling, hkeeps⟩ := consumes_parseWith bound s t s' hrun
  obtain rfl : taken = taken' := List.append_cancel_right (hkinds.symm.trans hkinds')
  rw [← hkeeps.withoutAttrs_eq, hword] at hspelling
  exact hspelling.eq_named

theorem reads_reference (word : String) {rest : List TokenKind}
    (hrest : endsType rest.head? = true) :
    Reads IdlType.parse (.ident word :: rest) (.named word) rest := by
  have hspelling := TypeSpelling.name ⟨word, [], by simp, by simp⟩ false
  exact (Reads.remaining _).bind
    (hspelling.readsType _ (by simp [TypeWords.tokens, questionTokens]) rest hrest)

/-! ## What a name is found as -/

/-- The word is no escape. -/
def IsUnescaped (word : String) : Prop := word.toList.head? ≠ some '_'

theorem isUnescaped_declaredName (word : String) : IsUnescaped (declaredName word) := by
  rw [IsUnescaped, declaredName, String.toList_ofList]
  intro hhead
  have := List.head?_dropWhile_not (· == '_') word.toList
  simp [hhead] at this

theorem declaredName_eq_self_iff {word : String} : declaredName word = word ↔ IsUnescaped word := by
  constructor
  · intro heq
    rw [← heq]
    exact isUnescaped_declaredName word
  · intro hword
    rw [declaredName, ← String.toList_inj, String.toList_ofList]
    cases hchars : word.toList with
    | nil => rfl
    | cons c cs =>
        have hne : (c == '_') = false := by simpa [IsUnescaped, hchars] using hword
        rw [List.dropWhile_cons, hne]
        rfl

/-- The list and the name of what a name refers to; none for a scalar. -/
def NameKind.place? : NameKind → Option (EntryKind × String)
  | scalar _ => none
  | enumeration e => some (.enumeration, e.name)
  | dictionary d => some (.dictionary, d.name)
  | interface i => some (.interface, i.name)
  | typedef t _ => some (.typedef, t.name)

namespace Model

variable {m : Model} {k : EntryKind} {n : String}

/-- Resolution of the type ends at the entry with the name in a list of the model. -/
def Finds (m : Model) (t : IdlType) (k : EntryKind) (n : String) : Prop :=
  ∃ kind, m.resolve? t = some (.name kind) ∧ kind.place? = some (k, n)

/-- The first list that has the name, in the order in which they are searched. -/
def firstKind? (m : Model) (n : String) : Option EntryKind :=
  [.enumeration, .dictionary, .interface, .typedef].find? fun k => (m.keys k).contains n

/-- The lists that are searched before one. -/
def searchedBefore : EntryKind → List EntryKind
  | .enumeration => []
  | .dictionary => [.enumeration]
  | .interface => [.enumeration, .dictionary]
  | .typedef => [.enumeration, .dictionary, .interface]

/-- The alias has bindings. -/
def BindsAlias (m : Model) (a : Typedef) : Prop :=
  (∃ c ∈ Scalar.all, a.target = .named c.name) ∨ m.isBoundAlias a = true

theorem contains_keys (m : Model) (n : String) :
    (m.keys .enumeration).contains n = (m.enum? n).isSome ∧
      (m.keys .dictionary).contains n = (m.dictionary? n).isSome ∧
      (m.keys .interface).contains n = (m.interface? n).isSome ∧
      (m.keys .typedef).contains n = (m.typedef? n).isSome := by
  refine ⟨?_, ?_, ?_, ?_⟩ <;> rw [Bool.eq_iff_iff] <;>
    simp [keys, enum?, dictionary?, interface?, typedef?, List.find?_isSome]

theorem firstKind?_eq_some_iff (hn : n ∈ m.keys k) :
    m.firstKind? n = some k ↔ ∀ k' ∈ searchedBefore k, n ∉ m.keys k' := by
  cases k <;> simp [firstKind?, searchedBefore, List.find?_cons_eq_some, hn]

theorem place?_of_nameKind? {isBound : Typedef → Bool} {kind : NameKind}
    (hn : Scalar.find? n = none) (hkind : m.nameKind? isBound n = some kind) :
    ∃ k, m.firstKind? n = some k ∧ kind.place? = some (k, n) := by
  obtain ⟨henum, hdictionary, hinterface, htypedef⟩ := contains_keys m n
  have hname := kindOf_of_nameKind? hkind
  rw [nameKind?, hn] at hkind
  simp only [firstKind?, List.find?_cons, henum, hdictionary, hinterface, htypedef]
  cases he : m.enum? n with
  | some e =>
      obtain rfl : .enumeration e = kind := by simpa [he] using hkind
      exact ⟨.enumeration, rfl, by rw [NameKind.place?, hname.2.2]⟩
  | none =>
  cases hd : m.dictionary? n with
  | some d =>
      obtain rfl : .dictionary d = kind := by simpa [he, hd] using hkind
      exact ⟨.dictionary, rfl, by rw [NameKind.place?, hname.2.2]⟩
  | none =>
  cases hi : m.interface? n with
  | some i =>
      obtain rfl : .interface i = kind := by simpa [he, hd, hi] using hkind
      exact ⟨.interface, rfl, by rw [NameKind.place?, hname.2.2]⟩
  | none =>
  cases ht : m.typedef? n with
  | none => simp [he, hd, hi, ht] at hkind
  | some a =>
      simp only [he, hd, hi, ht, Option.ite_none_right_eq_some, Option.some.injEq] at hkind
      obtain ⟨_, rfl⟩ := hkind
      exact ⟨.typedef, rfl, by rw [NameKind.place?, hname.2.2.1]⟩

/-- A name is known exactly if it is found in another list before that of the aliases. -/
theorem isKnown_iff_of_firstKind? (hn : Scalar.find? n = none) (hfirst : m.firstKind? n = some k) :
    m.IsKnown n ↔ k ≠ .typedef := by
  have hkey : n ∈ m.keys k := by simpa using List.find?_some hfirst
  constructor
  · rintro (⟨c, hc, rfl⟩ | ⟨k', hk', hkey'⟩) rfl
    · rw [Scalar.find?_of_mem hc] at hn
      cases hn
    · have hbefore := (firstKind?_eq_some_iff hkey).mp hfirst
      have hmem : k' ∈ searchedBefore .typedef := by
        cases k' with
        | typedef => exact absurd rfl hk'
        | _ => decide
      exact hbefore k' hmem hkey'
  · intro hk
    exact .inr ⟨k, hk, hkey⟩

/-- A name that is no scalar is found in the first list that has it, an alias only if it has
bindings. -/
theorem finds_iff (hn : Scalar.find? n = none) :
    m.Finds (.named n) k n ↔
      m.firstKind? n = some k ∧ (k = .typedef → ∃ a, m.typedef? n = some a ∧ m.BindsAlias a) := by
  have hbound (hfirst : m.firstKind? n = some k) :
      (m.nameKind? m.isBoundAlias n).isSome = true ↔
        (k = .typedef → ∃ a, m.typedef? n = some a ∧ m.BindsAlias a) := by
    rw [nameKind?_isSome_iff, isKnown_iff_of_firstKind? hn hfirst, ← imp_iff_not_or]
    rfl
  constructor
  · rintro ⟨kind, hresolve, hplace⟩
    obtain ⟨_, hx, hkind⟩ := nameKind?_of_resolve? hresolve
    obtain rfl := IdlType.named.inj hx
    obtain ⟨k', hfirst, hplace'⟩ := place?_of_nameKind? hn hkind
    obtain rfl : k' = k := by simpa [hplace'] using hplace
    exact ⟨hfirst, (hbound hfirst).mp (by rw [hkind]; rfl)⟩
  · rintro ⟨hfirst, halias⟩
    obtain ⟨kind, hkind⟩ := Option.isSome_iff_exists.mp ((hbound hfirst).mpr halias)
    obtain ⟨k', hfirst', hplace⟩ := place?_of_nameKind? hn hkind
    obtain rfl : k' = k := by simpa [hfirst'] using hfirst
    exact ⟨kind, by rw [resolve?, hkind]; rfl, hplace⟩

/-- Whatever the type is found as has the name that it refers to. -/
theorem Finds.eq_name {word : String} (h : m.Finds (.named word) k n) : word = n := by
  obtain ⟨kind, hresolve, hplace⟩ := h
  obtain ⟨_, hx, hkind⟩ := nameKind?_of_resolve? hresolve
  obtain rfl := IdlType.named.inj hx
  cases hscalar : Scalar.find? word with
  | some c =>
      obtain rfl : .scalar c = kind := by simpa [nameKind?, hscalar] using hkind
      cases hplace
  | none =>
      obtain ⟨k', _, hplace'⟩ := place?_of_nameKind? hscalar hkind
      exact (Prod.mk.inj (Option.some.inj (hplace'.symm.trans hplace))).2

end Model

/-- No scalar is named with an escape. -/
theorem Scalar.find?_of_escaped {word : String} (hword : ¬IsUnescaped word) :
    find? word = none := by
  cases hfound : find? word with
  | none => rfl
  | some c =>
      have hnames : ∀ c ∈ all, c.name.toList.head? ≠ some '_' := by decide
      rw [← name_of_find? hfound] at hword
      exact absurd (hnames c (mem_all_of_find? hfound)) hword

/-- In a model of a text an escaped reference is found as nothing. -/
theorem resolve?_of_escaped {source : String} {ds : List Definition} {m : Model}
    (hread : Definition.listOfText source = .ok ds) (hm : Model.ofDefinitions ds = .ok m)
    {word : String} (hword : ¬IsUnescaped word) : m.resolve? (.named word) = none := by
  obtain ⟨bodies, hmodel⟩ := ofDefinitions_eq_ok_iff.mp hm
  have hscalar := Scalar.find?_of_escaped hword
  have hkeys : ∀ k, (m.keys k).contains word = false := by
    intro k
    by_contra hmem
    obtain ⟨d, hd, hplace⟩ := hmodel.mem_keys_iff.mp (by simpa using hmem)
    obtain ⟨word', _, rfl⟩ := Definition.exists_isNamedBy hread hd hplace
    exact hword (isUnescaped_declaredName word')
  cases hresolve : m.nameKind? m.isBoundAlias word with
  | none => rw [Model.resolve?, hresolve]; rfl
  | some kind =>
      obtain ⟨k, hfirst, _⟩ := Model.place?_of_nameKind? hscalar hresolve
      have hfound := List.find?_some hfirst
      rw [hkeys] at hfound
      cases hfound

/-- **Reference and definition are spelled alike unless the spelling is an escape.** Every
definition is named by a word. A reference with that word is read as the word, which is the name of
the definition exactly if it is no escape. Then resolution finds the definition, provided that no
list searched before has the name and that an alias has bindings; an escaped reference is found as
nothing. -/
theorem reference_names_definition_iff {source : String} {ds : List Definition} {m : Model}
    (hread : Definition.listOfText source = .ok ds) (hm : Model.ofDefinitions ds = .ok m)
    {d : Definition} (hd : d ∈ ds) {k : EntryKind} {n : String}
    (hplace : d.place? = some (k, n)) :
    (∃ word, d.IsNamedBy word) ∧ ∀ word, d.IsNamedBy word →
      (∀ rest, endsType rest.head? = true →
        Reads IdlType.parse (.ident word :: rest) (.named word) rest) ∧
      ∀ t : IdlType, t.IsSpelled word →
        (t = .named n ↔ IsUnescaped word) ∧
          (Scalar.find? n = none →
            (m.Finds t k n ↔ IsUnescaped word ∧ (∀ k' ∈ Model.searchedBefore k, n ∉ m.keys k') ∧
              (k = .typedef → ∃ a, m.typedef? n = some a ∧ m.BindsAlias a))) ∧
          (¬IsUnescaped word → m.resolve? t = none) := by
  obtain ⟨bodies, hmodel⟩ := ofDefinitions_eq_ok_iff.mp hm
  have hkey := hmodel.mem_keys_iff.mpr ⟨d, hd, hplace⟩
  obtain ⟨spelling, hspelling, _⟩ := Definition.exists_isNamedBy hread hd hplace
  refine ⟨⟨spelling, hspelling⟩, fun word hword => ?_⟩
  obtain rfl := hword.name_eq hplace
  refine ⟨fun rest hrest => reads_reference word hrest, fun t ht => ?_⟩
  obtain rfl := ht.eq_named
  refine ⟨?_, fun hscalar => ?_, fun hescaped => resolve?_of_escaped hread hm hescaped⟩
  · rw [IdlType.named.injEq, eq_comm, declaredName_eq_self_iff]
  · rw [← Model.firstKind?_eq_some_iff hkey, ← Model.finds_iff hscalar]
    constructor
    · intro hfinds
      have heq := hfinds.eq_name
      refine ⟨declaredName_eq_self_iff.mp heq.symm, ?_⟩
      rwa [← heq] at hfinds ⊢
    · rintro ⟨hunescaped, hfinds⟩
      rwa [declaredName_eq_self_iff.mpr hunescaped] at hfinds ⊢

/-- An alias of a wrapped scalar, with an extended attribute where it is used. -/
def aliasText : String :=
  "typedef sequence<long> S;interface L\x7battribute [C] S x;\x7d;"

def aliasStream : TokenStream := .inLine [
  (.ident "typedef", 0), (.ident "sequence", 8), (.punct .openAngle, 16), (.ident "long", 17),
  (.punct .closeAngle, 21), (.ident "S", 23), (.punct .semicolon, 24), (.ident "interface", 25),
  (.ident "L", 35), (.punct .openBrace, 36), (.ident "attribute", 37), (.punct .openBracket, 47),
  (.ident "C", 48), (.punct .closeBracket, 49), (.ident "S", 51), (.ident "x", 53),
  (.punct .semicolon, 54), (.punct .closeBrace, 55), (.punct .semicolon, 56)] 57

def aliasOfSequence : TypedefDef := ⟨"S", .generic "sequence" (.named "long")⟩

def aliasDefinitions : List Definition :=
  [.typedef aliasOfSequence,
    .interface ⟨"L", false, none, [.attribute ⟨"x", .named "S", false, false, []⟩], []⟩]

def aliasModel : Model :=
  ⟨[⟨"L", [.attribute ⟨"x", .named "S", false, false, []⟩]⟩], [], [],
    [⟨"S", .generic "sequence" (.named "long")⟩]⟩

theorem reference_names_definition_alias :
    Definition.listOfText aliasText = .ok aliasDefinitions ∧
      Model.ofDefinitions aliasDefinitions = .ok aliasModel ∧
      (Definition.typedef aliasOfSequence).IsNamedBy "S" ∧ IdlType.IsSpelled (.named "S") "S" ∧
      aliasModel.Finds (.named "S") .typedef aliasOfSequence.name := by
  have hstream : TokenStream.ofText aliasText = .ok aliasStream := rfl
  have hread : Definition.listOfText aliasText = .ok aliasDefinitions :=
    Definition.listOfText_of_ofText hstream
  have hm : Model.ofDefinitions aliasDefinitions = .ok aliasModel := rfl
  have hnone : Reads ExtAttr.parseList [] [] [] := ExtAttr.reads_no_list (by simp)
  have hword : (Definition.typedef aliasOfSequence).IsNamedBy "S" :=
    ⟨aliasStream, ⟨aliasStream.tokens.drop 7, aliasStream.stop⟩, _, rfl, rfl,
      .beforeSemicolon ⟨[], [], hnone⟩ false
        [.ident "sequence", .punct .openAngle, .ident "long", .punct .closeAngle]⟩
  have hspelled : IdlType.IsSpelled (.named "S") "S" :=
    ⟨8, ⟨aliasStream.tokens.drop 11, aliasStream.stop⟩,
      ⟨aliasStream.tokens.drop 15, aliasStream.stop⟩,
      [.punct .openBracket, .ident "C", .punct .closeBracket, .ident "S"], rfl, rfl, rfl⟩
  have hnames := (reference_names_definition_iff hread hm List.mem_cons_self rfl).2 "S" hword
  have hreference := hnames.2 _ hspelled
  refine ⟨hread, hm, hword, hspelled, (hreference.2.1 rfl).mpr ⟨?_, ?_, ?_⟩⟩
  · rw [IsUnescaped]
    decide
  · simp [Model.searchedBefore, aliasModel, aliasOfSequence, Model.keys]
  · exact fun _ => ⟨_, rfl, .inr rfl⟩

/-- An interface whose name is escaped, and an attribute whose type is escaped likewise. -/
def escapedStream : TokenStream := .inLine [
  (.ident "interface", 0), (.ident "_Foo", 10), (.punct .openBrace, 15), (.punct .closeBrace, 17),
  (.punct .semicolon, 18), (.ident "interface", 20), (.ident "Bar", 30), (.punct .openBrace, 34),
  (.ident "attribute", 36), (.ident "_Foo", 46), (.ident "x", 51), (.punct .semicolon, 52),
  (.punct .closeBrace, 54), (.punct .semicolon, 55)] 56

/-- The attribute is not found to be of the interface, though the name of the interface is found. -/
theorem escaped_reference_not_found :
    TokenStream.ofText "interface _Foo \x7b \x7d; interface Bar \x7b attribute _Foo x; \x7d;" =
        .ok escapedStream ∧
      ∃ ds m, Definition.listOfTokens escapedStream = .ok ds ∧
        ds = [.interface ⟨"Foo", false, none, [], []⟩, .interface ⟨"Bar", false, none,
          [.attribute ⟨"x", .named "_Foo", false, false, []⟩], []⟩] ∧
        Model.ofDefinitions ds = .ok m ∧ m.Finds (.named "Foo") .interface "Foo" ∧
        m.resolve? (.named "_Foo") = none :=
  ⟨rfl, _, _, rfl, rfl, rfl, ⟨_, rfl, rfl⟩, rfl⟩

end IdlBindings
