import IdlBindings.Proofs.Definition.TypeTokens
import IdlBindings.Proofs.Token.Decomposition

/-!
# The text of a type

Part of a type is a tree and part of it is only text. Either way nothing is lost but extended
attributes: the text of a type has exactly the tokens that the type was read from without those of
its attributes, and reading it gives the type again. So these tokens and the type determine each
other, and the layout of a text has no part in its types.

## Main definitions

* `LaysOut`: a text of tokens that may stand before other texts
* `TokenStream.IsType`: tokens that are a type as a whole
-/
namespace IdlBindings

open IdlBindings.Parser

/-! ## The layout of the text -/

/-- What follows a word does not go on with it. -/
def EndsWord (cs : List Char) : Prop := ∀ c ∈ cs.head?, isIdentPart c = false

theorem endsWord_space (cs : List Char) : EndsWord (' ' :: cs) := by
  have hspace : isIdentPart ' ' = false := by decide
  simpa [EndsWord] using hspace

theorem endsWord_mark (mark : Punct) (hmark : mark ≠ .minus) (cs : List Char) :
    EndsWord (mark.toChar :: cs) := by
  have hpart : isIdentPart mark.toChar = false := by
    cases mark with
    | minus => exact absurd rfl hmark
    | _ => decide
  simpa [EndsWord] using hpart

theorem EndsWord.append {cs ds : List Char} (hcs : EndsWord cs) (hds : EndsWord ds) :
    EndsWord (cs ++ ds) := by
  cases cs with
  | nil => exact hds
  | cons c cs => exact hcs

/-- The text is a layout of the tokens before everything that ends a word. -/
def LaysOut (cs : List Char) (kinds : List TokenKind) : Prop :=
  ∀ (ds : List Char) (rest : List TokenKind), Layout rest ds → EndsWord ds →
    Layout (kinds ++ rest) (cs ++ ds)

namespace LaysOut

variable {cs ds : List Char} {kinds more : List TokenKind}

theorem nil : LaysOut [] [] := fun _ _ h _ => h

theorem append (h : LaysOut cs kinds) (h' : LaysOut ds more) (hds : EndsWord ds) :
    LaysOut (cs ++ ds) (kinds ++ more) := by
  intro es rest hes hend
  rw [List.append_assoc, List.append_assoc]
  exact h _ _ (h' es rest hes hend) (hds.append hend)

theorem space (h : LaysOut cs kinds) : LaysOut (' ' :: cs) kinds := by
  intro es rest hes hend
  have hgap : Gap [' '] := .blank (by decide) .nil
  have hspaced := Layout.after_gap hgap (h es rest hes hend)
  exact hspaced

theorem mark (mark : Punct) (hmark : mark ≠ .minus) (h : LaysOut cs kinds) :
    LaysOut (mark.toChar :: cs) (.punct mark :: kinds) := by
  intro es rest hes hend
  refine Layout.cons .nil rfl (h es rest hes hend) ?_
  intro c _
  cases mark with
  | minus => exact absurd rfl hmark
  | _ => rfl

theorem word {word : String} (hword : isIdentifier word = true) (h : LaysOut cs kinds)
    (hcs : EndsWord cs) : LaysOut (word.toList ++ cs) (.ident word :: kinds) := by
  intro es rest hes hend
  have hkind : (TokenKind.ident word).isWritable = true := hword
  rw [List.append_assoc]
  exact Layout.cons .nil hkind (h es rest hes hend) (hcs.append hend)

end LaysOut

/-- Words, each after a space. -/
def spacedWords (words : List String) : List Char := words.flatMap fun word => ' ' :: word.toList

theorem endsWord_spacedWords (words : List String) : EndsWord (spacedWords words) := by
  cases words with
  | nil => simp [EndsWord, spacedWords]
  | cons word words => exact endsWord_space _

theorem TypeWords.toList_text (n : TypeWords) :
    n.text.toList = n.word.toList ++ spacedWords n.sizes := by
  have hfold (sizes : List String) (text : String) :
      (sizes.foldl (fun text size => text ++ " " ++ size) text).toList =
        text.toList ++ spacedWords sizes := by
    induction sizes generalizing text with
    | nil => simp [spacedWords]
    | cons size sizes ih => simp [ih, spacedWords]
  exact hfold n.sizes n.word

theorem laysOut_spacedWords {words : List String}
    (hwords : TokenKind.areWritable (words.map .ident) = true) :
    LaysOut (spacedWords words) (words.map .ident) := by
  induction words with
  | nil => exact .nil
  | cons word words ih =>
      rw [List.map_cons, TokenKind.areWritable_cons, Bool.and_eq_true] at hwords
      exact (LaysOut.word hwords.1 (ih hwords.2) (endsWord_spacedWords words)).space

theorem TypeWords.laysOut (n : TypeWords) (hn : TokenKind.areWritable n.tokens = true) :
    LaysOut n.text.toList n.tokens := by
  rw [tokens, TokenKind.areWritable_cons, Bool.and_eq_true] at hn
  rw [n.toList_text]
  exact .word hn.1 (laysOut_spacedWords hn.2) (endsWord_spacedWords n.sizes)

/-! ### Lists of types -/

/-- How a separator between types is written. -/
structure IsSeparator (separator : TokenKind) (text : String) : Prop where
  endsWord : ∀ cs, EndsWord (text.toList ++ cs)
  laysOut : ∀ {cs kinds}, LaysOut cs kinds → LaysOut (text.toList ++ cs) (separator :: kinds)

theorem isSeparator_comma : IsSeparator (.punct .comma) ", " where
  endsWord cs := endsWord_mark .comma (by simp) _
  laysOut h := h.space.mark .comma (by simp)

theorem isSeparator_or : IsSeparator (.ident "or") " or " where
  endsWord cs := endsWord_space _
  laysOut h := (@LaysOut.word _ _ "or" (by decide) h.space (endsWord_space _)).space

/-- The texts of further parts, each after a separator. -/
def TypePart.moreText (text : String) (parts : List TypePart) : List Char :=
  parts.flatMap fun part => text.toList ++ part.type.text.toList

theorem toList_intercalate (text first : String) (others : List String) :
    (String.intercalate text (first :: others)).toList =
      first.toList ++ others.flatMap fun other => text.toList ++ other.toList := by
  induction others generalizing first with
  | nil => simp
  | cons second others ih => simp [String.intercalate_cons_cons, ih]

namespace IsSeparator

variable {separator : TokenKind} {text : String} (h : IsSeparator separator text)

include h

theorem endsWord_moreText (parts : List TypePart) : EndsWord (TypePart.moreText text parts) := by
  cases parts with
  | nil => simp [EndsWord, TypePart.moreText]
  | cons part parts =>
      rw [TypePart.moreText, List.flatMap_cons, List.append_assoc]
      exact h.endsWord _

theorem laysOut_moreText {parts : List TypePart}
    (hparts : ∀ part ∈ parts, LaysOut part.type.text.toList part.tokens) :
    LaysOut (TypePart.moreText text parts) (TypePart.moreTokens separator parts) := by
  induction parts with
  | nil => exact .nil
  | cons part parts ih =>
      rw [List.forall_mem_cons] at hparts
      have hmore := hparts.1.append (ih hparts.2) (h.endsWord_moreText parts)
      simpa [TypePart.moreText, TypePart.moreTokens] using h.laysOut hmore

/-- Types between two marks. -/
theorem laysOut_between (opening closing : Punct) (hopening : opening ≠ .minus)
    (hclosing : closing ≠ .minus) {first : TypePart} {others : List TypePart}
    (hfirst : LaysOut first.type.text.toList first.tokens)
    (hothers : ∀ part ∈ others, LaysOut part.type.text.toList part.tokens) :
    LaysOut
      (opening.toChar :: (String.intercalate text
        ((first.type :: others.map TypePart.type).map IdlType.text)).toList ++ [closing.toChar])
      (.punct opening :: (first.tokens ++ TypePart.moreTokens separator others) ++
        [.punct closing]) := by
  have htypes := hfirst.append (h.laysOut_moreText hothers) (h.endsWord_moreText others)
  have hclose := LaysOut.nil.mark closing hclosing
  have htext : (String.intercalate text
      ((first.type :: others.map TypePart.type).map IdlType.text)).toList =
        first.type.text.toList ++ TypePart.moreText text others := by
    rw [List.map_cons, toList_intercalate, TypePart.moreText]
    simp [List.flatMap_map]
  rw [htext]
  exact (htypes.mark opening hopening).append hclose (endsWord_mark closing hclosing [])

end IsSeparator

/-! ### Types -/

theorem IdlType.text_wrap (wrapper : String) (first : IdlType) (others : List IdlType) :
    (wrap wrapper (first :: others)).text =
      wrapper ++ "<" ++ String.intercalate ", " ((first :: others).map text) ++ ">" := by
  cases others with
  | nil => simp [wrap]
  | cons second others => rfl

/-- A question mark may follow every type. -/
theorem LaysOut.question (t : IdlType) {kinds : List TokenKind} (h : LaysOut t.text.toList kinds)
    (nullable : Bool) :
    LaysOut (t.nullableIf nullable).text.toList (kinds ++ questionTokens nullable) := by
  cases nullable with
  | true =>
      have hquestion := h.append (LaysOut.nil.mark .question (by simp))
        (endsWord_mark .question (by simp) [])
      simpa [IdlType.nullableIf, IdlType.nullable, questionTokens, Punct.toChar] using hquestion
  | false => simpa [IdlType.nullableIf, questionTokens] using h

theorem TypePart.areWritable_tokens {separator : TokenKind} {parts : List TypePart}
    (hparts : TokenKind.areWritable (moreTokens separator parts) = true) :
    ∀ part ∈ parts, TokenKind.areWritable part.tokens = true := by
  intro part hpart
  rw [TokenKind.areWritable, List.all_eq_true] at hparts ⊢
  intro kind hkind
  exact hparts kind (List.mem_flatMap.mpr ⟨part, hpart, List.mem_cons_of_mem _ hkind⟩)

/-- The text of a type is a layout of the tokens that spell it. -/
theorem TypeSpelling.laysOut {kinds : List TokenKind} {t : IdlType} (h : TypeSpelling kinds t)
    (hkinds : TokenKind.areWritable kinds = true) : LaysOut t.text.toList kinds := by
  induction h with
  | name n nullable =>
      rw [TokenKind.areWritable_append, Bool.and_eq_true] at hkinds
      exact LaysOut.question (.named n.text) (n.laysOut hkinds.1) nullable
  | @generic n nullable first others _ _ ihfirst ihothers =>
      simp only [TokenKind.areWritable_append, TokenKind.areWritable_cons, Bool.and_eq_true]
        at hkinds
      obtain ⟨hn, -, hfirst, hothers, -⟩ := hkinds
      have hparts part hpart := ihothers part hpart (TypePart.areWritable_tokens hothers part hpart)
      have hbetween := isSeparator_comma.laysOut_between .openAngle .closeAngle (by simp) (by simp)
        (ihfirst hfirst) hparts
      have hwrapped := (n.laysOut hn).append hbetween (endsWord_mark .openAngle (by simp) _)
      have htext := IdlType.text_wrap n.text first.type (others.map TypePart.type)
      have hquestion := LaysOut.question (.wrap n.text (first.type :: others.map TypePart.type))
        (by simpa [htext, Punct.toChar] using hwrapped) nullable
      simpa using hquestion
  | @union nullable first others _ _ ihfirst ihothers =>
      simp only [TokenKind.areWritable_append, TokenKind.areWritable_cons, Bool.and_eq_true]
        at hkinds
      obtain ⟨-, hfirst, hothers, -⟩ := hkinds
      have hparts part hpart := ihothers part hpart (TypePart.areWritable_tokens hothers part hpart)
      have hbetween := isSeparator_or.laysOut_between .openParen .closeParen (by simp) (by simp)
        (ihfirst hfirst) hparts
      have hquestion := LaysOut.question (.union (first.type :: others.map TypePart.type))
        (by simpa [IdlType.union, Punct.toChar] using hbetween) nullable
      simpa using hquestion

/-! ## Reading the text again -/

/-- The tokens stand somewhere in a text, one after the other. -/
def TokenStream.InText (s : TokenStream) : Prop :=
  ∃ source whole, TokenStream.ofText source = .ok whole ∧ s.tokens <:+: whole.tokens

theorem TokenStream.InText.areWritable {s : TokenStream} (hs : s.InText) :
    TokenKind.areWritable s.kinds = true := by
  obtain ⟨source, whole, hwhole, hpart⟩ := hs
  obtain ⟨-, last, -, hcut⟩ := exists_cut_of_ofText hwhole
  have hall := hcut.areWritable
  rw [TokenKind.areWritable, List.all_eq_true] at hall ⊢
  intro kind hkind
  exact hall kind ((hpart.map Token.kind).subset hkind)

/-- The tokens are read as the type, to the last. -/
def TokenStream.IsType (s : TokenStream) (t : IdlType) : Prop :=
  ∃ rest, IdlType.parse s = .ok (t, rest) ∧ rest.tokens = []

section IsType

variable {kinds : List TokenKind} {s s' : TokenStream} {t t' : IdlType}

theorem TypeSpelling.isType (h : TypeSpelling kinds t) (hs : s.kinds = kinds) : s.IsType t := by
  have hreads : Reads IdlType.parse (kinds ++ []) t [] :=
    (Reads.remaining _).bind (h.readsType _ (by simp) [] rfl)
  obtain ⟨rest, hrun, hrest⟩ := hreads s (by rw [hs, List.append_nil])
  exact ⟨rest, hrun, List.map_eq_nil_iff.mp hrest⟩

theorem TokenStream.IsType.unique (h : s.IsType t) (h' : s.IsType t') : t = t' := by
  obtain ⟨rest, hrun, -⟩ := h
  obtain ⟨rest', hrun', -⟩ := h'
  rw [hrun] at hrun'
  exact congrArg Prod.fst (Except.ok.inj hrun')

theorem TokenStream.IsType.spelling (h : s.IsType t) : TypeSpelling (withoutAttrs s.kinds) t := by
  obtain ⟨rest, hrun, hrest⟩ := h
  obtain ⟨-, taken, hkinds, kept, hspelling, hkeeps⟩ := IdlType.consumes_parse s t rest hrun
  rw [show rest.kinds = [] from List.map_eq_nil_iff.mpr hrest, List.append_nil] at hkinds
  rwa [hkinds, hkeeps.withoutAttrs_eq]

/-- Where tokens stand has no part in their type. -/
theorem TokenStream.IsType.of_kinds (h : s.IsType t) (hs' : s'.kinds = s.kinds) : s'.IsType t := by
  obtain ⟨rest, hrun, hrest⟩ := h
  obtain ⟨hreads, -⟩ := IdlType.consumes_parse s t rest hrun
  obtain ⟨rest', hrun', hrest'⟩ := hreads s' hs'
  rw [show rest.kinds = [] from List.map_eq_nil_iff.mpr hrest] at hrest'
  exact ⟨rest', hrun', List.map_eq_nil_iff.mp hrest'⟩

/-- The text of a type has the tokens of the type. -/
theorem TokenStream.IsType.exists_ofText (hs : s.InText) (h : s.IsType t) :
    ∃ s', TokenStream.ofText t.text = .ok s' ∧ s'.kinds = withoutAttrs s.kinds := by
  have hwritable := areWritable_withoutAttrs hs.areWritable
  have hlayout := h.spelling.laysOut hwritable [] [] (.nil .nil) (by simp [EndsWord])
  rw [List.append_nil, List.append_nil] at hlayout
  obtain ⟨s', hs', hkinds⟩ := TokenStream.ofText_of_layout hlayout
  exact ⟨s', by rwa [String.ofList_toList] at hs', hkinds⟩

/-- **The text of a type is canonical.** Let tokens that stand anywhere in a text be read as a type,
to the last. The text of the type has these tokens without extended attributes, and it is read as
the type again. So is whatever differs from the tokens only in white space and comments, and other
tokens are read as the same type exactly if they only differ in extended attributes. -/
theorem type_text_canonical (hs : s.InText) (ht : s.IsType t) :
    (∃ s', TokenStream.ofText t.text = .ok s' ∧ s'.kinds = withoutAttrs s.kinds ∧ s'.IsType t) ∧
    (∀ s' : TokenStream, s'.kinds = s.kinds → s'.IsType t) ∧
    ∀ (s' : TokenStream) (t' : IdlType), s'.InText → s'.IsType t' →
      (t' = t ↔ withoutAttrs s'.kinds = withoutAttrs s.kinds) := by
  obtain ⟨again, hagain, hkinds⟩ := ht.exists_ofText hs
  have htype : again.IsType t := ht.spelling.isType hkinds
  refine ⟨⟨again, hagain, hkinds, htype⟩, fun s' hs' => ht.of_kinds hs', ?_⟩
  intro s' t' hs' ht'
  constructor
  · rintro rfl
    -- Both spellings have the tokens of the one text.
    obtain ⟨again', hagain', hkinds'⟩ := ht'.exists_ofText hs'
    rw [hagain] at hagain'
    rw [← hkinds, ← hkinds', Except.ok.inj hagain']
  · intro hsame
    have htype' : again.IsType t' := ht'.spelling.isType (hkinds.trans hsame.symm)
    exact htype'.unique htype

end IsType

/-- A nullable union, with an attribute that holds a bracket and no spaces where none are needed. -/
def attributedUnion : TokenStream := .inLine [
    (.punct .openParen, 0), (.punct .openBracket, 1), (.ident "A", 2), (.punct .equals, 3),
    (.punct .openParen, 4), (.punct .closeBracket, 5), (.punct .closeParen, 6),
    (.punct .closeBracket, 7), (.ident "long", 8), (.ident "or", 13), (.ident "X", 20),
    (.punct .openAngle, 21), (.ident "K", 22), (.punct .comma, 23), (.ident "long", 24),
    (.ident "long", 29), (.punct .question, 33), (.punct .closeAngle, 34),
    (.punct .closeParen, 35), (.punct .question, 36)] 37

theorem type_text_canonical_union :
    TokenStream.ofText "([A=(])]long or/*x*/X<K,long long?>)?" = .ok attributedUnion ∧
      attributedUnion.IsType (.named "(long or X<K, long long?>)?") ∧
      ∃ s', TokenStream.ofText "(long or X<K, long long?>)?" = .ok s' ∧
        s'.kinds = withoutAttrs attributedUnion.kinds ∧
        s'.IsType (.named "(long or X<K, long long?>)?") := by
  have hread : TokenStream.ofText "([A=(])]long or/*x*/X<K,long long?>)?" =
      .ok attributedUnion := rfl
  have htype : attributedUnion.IsType (.named "(long or X<K, long long?>)?") :=
    ⟨⟨[], attributedUnion.stop⟩, rfl, rfl⟩
  have hcanonical := type_text_canonical ⟨_, _, hread, List.infix_rfl⟩ htype
  exact ⟨hread, htype, hcanonical.1⟩

end IdlBindings
