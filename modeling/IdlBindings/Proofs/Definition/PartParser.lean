import IdlBindings.Proofs.Definition.Form
import IdlBindings.Proofs.Token.Reads

/-!
# Reading names, types and values

The parts that definitions are made of: names, extended attributes, types and default values. Their
parsers read the tokens of a form as what the form stands for. The grammar is predictive, so a
statement also says what may follow: after a type no token that would still belong to it, and after
a default value nothing special at all.

## Main definitions

* `ExtAttr.Takes`: what a right-hand side takes from tokens
* `endsType`: the tokens that may follow a type
* `TypeSpelling`: the tokens of a type
-/
namespace IdlBindings

open IdlBindings.Parser

variable {kinds rest : List TokenKind}

/-! ## Names -/

theorem PlainName.exists_toList (n : PlainName) :
    ∃ c cs, n.text.toList = c :: cs ∧ c.isAlpha = true ∧ cs.all isIdentPart = true := by
  have hplain := n.isPlainName_text
  cases htext : n.text.toList with
  | nil => simp [isPlainName, htext] at hplain
  | cons c cs =>
      rw [isPlainName, htext, Bool.and_eq_true] at hplain
      exact ⟨c, cs, rfl, hplain⟩

theorem dropWhile_underscore (n : PlainName) :
    n.text.toList.dropWhile (· == '_') = n.text.toList := by
  obtain ⟨c, cs, htext, halpha, _⟩ := n.exists_toList
  have hne : (c == '_') = false := by
    rw [beq_eq_false_iff_ne]
    rintro rfl
    revert halpha
    decide
  rw [htext, List.dropWhile_cons, hne]
  rfl

theorem PlainName.reads_escaped (n : PlainName) (rest : List TokenKind) :
    Reads expectIdent (n.escaped :: rest) n.text rest := by
  have hname := Reads.expectIdent ("_" ++ n.text) rest
  have htext : ("_" ++ n.text).toList.dropWhile (· == '_') = n.text.toList := by
    rw [String.toList_append]
    exact dropWhile_underscore n
  rwa [declaredName, htext, String.ofList_toList] at hname

/-- An escaped name is no keyword. -/
theorem PlainName.escaped_ne (n : PlainName) {word : String}
    (hword : word.toList.head? ≠ some '_') : n.escaped ≠ .ident word := by
  rw [escaped, ne_eq, TokenKind.ident.injEq]
  rintro rfl
  simp at hword

theorem Reference.reads_token (r : Reference) (rest : List TokenKind) :
    Reads expectIdent (r.token :: rest) r.text rest := by
  rw [token]
  split
  · exact r.name.reads_escaped rest
  · have hname := Reads.expectIdent r.name.text rest
    rwa [declaredName, dropWhile_underscore, String.ofList_toList] at hname

/-! ## Extended attributes -/

namespace ExtAttr

theorem reads_no_list (hkinds : kinds.head? ≠ some (.punct .openBracket)) :
    Reads parseList kinds [] kinds :=
  Reads.eat_else hkinds (Reads.pure [] kinds)

/-- The parentheses that are open after a token. -/
def innerDepth (depth : Nat) : TokenKind → Nat
  | .punct .openParen => depth + 1
  | .punct .closeParen => depth - 1
  | _ => depth

theorem valueTokens_of_not_stop {depth : Nat} {t : Token} (ts : List Token)
    (hkind : ¬(depth = 0 ∧ (t.kind = .punct .comma ∨ t.kind = .punct .closeBracket))) :
    valueTokens depth (t :: ts) =
      (valueTokens (innerDepth depth t.kind) ts).map fun (kinds, rest) =>
        (t.kind :: kinds, rest) := by
  rw [valueTokens, if_neg hkind]
  rfl

/-- From tokens of the kinds `before`, inside `depth` parentheses, a right-hand side takes `taken`
and leaves `after`. -/
def Takes (depth : Nat) (before taken after : List TokenKind) : Prop :=
  ∀ tokens : List Token, tokens.map Token.kind = before →
    ∃ tokens', valueTokens depth tokens = some (taken, tokens') ∧ tokens'.map Token.kind = after

theorem Takes.stop {kind : TokenKind}
    (hkind : kind = .punct .comma ∨ kind = .punct .closeBracket) :
    Takes 0 (kind :: rest) [] (kind :: rest) := by
  intro tokens htokens
  cases tokens with
  | nil => cases htokens
  | cons t ts =>
      refine ⟨t :: ts, ?_, htokens⟩
      rw [List.map_cons, List.cons.injEq] at htokens
      rw [valueTokens, htokens.1, if_pos ⟨rfl, hkind⟩]

theorem Takes.step {kind : TokenKind} {depth : Nat} {before taken after : List TokenKind}
    (hkind : ¬(depth = 0 ∧ (kind = .punct .comma ∨ kind = .punct .closeBracket)))
    (hrest : Takes (innerDepth depth kind) before taken after) :
    Takes depth (kind :: before) (kind :: taken) after := by
  intro tokens htokens
  cases tokens with
  | nil => cases htokens
  | cons t ts =>
      obtain ⟨rfl, hts⟩ := List.cons.inj htokens
      obtain ⟨tokens', hvalue, htokens'⟩ := hrest ts hts
      refine ⟨tokens', ?_, htokens'⟩
      rw [valueTokens_of_not_stop ts hkind, hvalue]
      rfl

/-- Words inside parentheses are all taken. -/
theorem Takes.words {before taken after : List TokenKind} (hrest : Takes 1 before taken after)
    (ws : List Word) :
    Takes 1 (RhsForm.wordTokens ws ++ before) (RhsForm.wordTokens ws ++ taken) after := by
  induction ws with
  | nil => exact hrest
  | cons w ws ih =>
      cases ws with
      | nil => exact Takes.step (by simp) hrest
      | cons v vs =>
          have hcomma : Takes 1 (.punct .comma :: (RhsForm.wordTokens (v :: vs) ++ before))
              (.punct .comma :: (RhsForm.wordTokens (v :: vs) ++ taken)) after :=
            Takes.step (by simp) ih
          exact Takes.step (by simp) hcomma

theorem takes_tokens (rhs : RhsForm) {kind : TokenKind}
    (hkind : kind = .punct .comma ∨ kind = .punct .closeBracket) (rest : List TokenKind) :
    Takes 0 (rhs.tokens ++ kind :: rest) rhs.tokens (kind :: rest) := by
  cases rhs with
  | word w => exact Takes.step (by simp) (Takes.stop hkind)
  | words ws =>
      have hclose : Takes 1 (.punct .closeParen :: kind :: rest) [.punct .closeParen]
          (kind :: rest) :=
        Takes.step (by simp) (Takes.stop hkind)
      have hopen : Takes 0
          (.punct .openParen :: (RhsForm.wordTokens ws ++ .punct .closeParen :: kind :: rest))
          (.punct .openParen :: (RhsForm.wordTokens ws ++ [.punct .closeParen])) (kind :: rest) :=
        Takes.step (by simp) (hclose.words ws)
      simpa [RhsForm.tokens] using hopen

/-- After a mark, a word is appended directly. -/
theorem appendToken_ident {text word : String}
    (htext : ∀ c ∈ text.toList.getLast?, c.isAlphanum = false) :
    appendToken text (.ident word) = text ++ word := by
  unfold appendToken
  split
  · next c hc => simp [htext c hc]
  · rfl

theorem foldl_appendToken_words {text : String}
    (htext : ∀ c ∈ text.toList.getLast?, c.isAlphanum = false) (ws : List Word) :
    (RhsForm.wordTokens ws).foldl appendToken text =
      text ++ String.intercalate "," (ws.map Subtype.val) := by
  induction ws generalizing text with
  | nil => simp [RhsForm.wordTokens]
  | cons w ws ih =>
      cases ws with
      | nil => simp [RhsForm.wordTokens, appendToken_ident htext]
      | cons v vs =>
          have hcomma : ∀ c ∈ (text ++ w.val ++ ",").toList.getLast?, c.isAlphanum = false := by
            simp
          have hmark : appendToken (text ++ w.val) (.punct .comma) = text ++ w.val ++ "," := rfl
          have htokens : RhsForm.wordTokens (w :: v :: vs) =
              .ident w.val :: .punct .comma :: RhsForm.wordTokens (v :: vs) := rfl
          rw [htokens, List.foldl_cons, List.foldl_cons, appendToken_ident htext, hmark, ih hcomma]
          simp [String.intercalate_cons_cons, String.append_assoc]

theorem foldl_appendToken_tokens (rhs : RhsForm) : rhs.tokens.foldl appendToken "" = rhs.value := by
  cases rhs with
  | word w =>
      have hword : appendToken "" (.ident w.val) = "" ++ w.val := appendToken_ident (by simp)
      simpa [RhsForm.tokens, RhsForm.value] using hword
  | words ws =>
      have hopen : appendToken "" (.punct .openParen) = "(" := by decide
      have hlast : ∀ c ∈ "(".toList.getLast?, c.isAlphanum = false := by simp
      rw [RhsForm.tokens, List.cons_append, List.foldl_cons, hopen, List.foldl_append,
        foldl_appendToken_words hlast ws]
      rfl

theorem reads_parseValue (rhs : RhsForm) {kind : TokenKind}
    (hkind : kind = .punct .comma ∨ kind = .punct .closeBracket) (rest : List TokenKind) :
    Reads parseValue (rhs.tokens ++ kind :: rest) rhs.value (kind :: rest) := by
  intro s hs
  obtain ⟨tokens', hvalue, htokens'⟩ := takes_tokens rhs hkind rest s.tokens hs
  refine ⟨{ s with tokens := tokens' }, ?_, htokens'⟩
  rw [parseValue, hvalue, ← foldl_appendToken_tokens]

end ExtAttr

theorem ExtAttrForm.reads_parseOne (e : ExtAttrForm) {kind : TokenKind}
    (hkind : kind = .punct .comma ∨ kind = .punct .closeBracket) (rest : List TokenKind) :
    Reads ExtAttr.parseOne (e.tokens ++ kind :: rest) e.extAttr (kind :: rest) := by
  obtain ⟨name, rhs⟩ := e
  cases rhs with
  | none =>
      have hequals : (kind :: rest).head? ≠ some (.punct .equals) := by
        rcases hkind with rfl | rfl <;> simp
      have hparen : ¬(kind :: rest).head? = some (.punct .openParen) := by
        rcases hkind with rfl | rfl <;> simp
      refine (name.reads_token (kind :: rest)).bind ?_
      refine Reads.eat_else hequals ((Reads.peek _).bind ?_)
      rw [if_neg hparen]
      exact Reads.pure _ _
  | some rhs =>
      refine (name.reads_token _).bind ?_
      exact Reads.eat_then ((ExtAttr.reads_parseValue rhs hkind rest).bind (Reads.pure _ _))

/-- Extended attributes before a token that is no opening bracket. -/
theorem ExtAttrForm.reads_parseList (es : List ExtAttrForm)
    (hrest : rest.head? ≠ some (.punct .openBracket)) :
    Reads ExtAttr.parseList (listTokens es ++ rest) (es.map extAttr) rest := by
  cases es with
  | nil => exact ExtAttr.reads_no_list hrest
  | cons e es =>
      simp only [listTokens, List.cons_append, List.append_assoc]
      refine Reads.eat_then ((Reads.remaining _).bind ?_)
      refine (Reads.commaSeparated (by decide) (fun e _ rest hkind => e.reads_parseOne hkind rest)
        es ?_ e rest).bind ((Reads.expectPunct _ _).bind (Reads.pure _ _))
      have hlength := Reads.length_le_length_flatMap
        (fun e => List.cons_ne_nil (.punct .comma) (tokens e)) es
      simp only [List.length_append]
      omega

/-! ## Types -/

/-- The token does not go on with the type before it. -/
def endsType : Option TokenKind → Bool
  | some (.punct .openAngle) => false
  | some (.punct .question) => false
  | some (.ident word) => !IdlType.isSizeWord word
  | _ => true

/-- The token is no word for a size. -/
def EndsSizes (kind : Option TokenKind) : Prop :=
  ∀ word, kind = some (.ident word) → IdlType.isSizeWord word = false

theorem sizeWords_of_kinds {sizes : List String}
    (hsizes : ∀ size ∈ sizes, IdlType.isSizeWord size = true) (hend : EndsSizes rest.head?)
    {tokens : List Token}
    (htokens : tokens.map Token.kind = sizes.map .ident ++ rest) :
    ∃ tokens', IdlType.sizeWords tokens = (sizes, tokens') ∧ tokens'.map Token.kind = rest := by
  induction sizes generalizing tokens with
  | nil =>
      refine ⟨tokens, ?_, htokens⟩
      cases tokens with
      | nil => rfl
      | cons t ts =>
          obtain rfl : t.kind :: ts.map Token.kind = rest := htokens
          rw [IdlType.sizeWords]
          split
          · next word hword =>
              have hsize := hend word (by rw [List.head?_cons, hword])
              rw [if_neg (by simp [hsize])]
          · rfl
  | cons size sizes ih =>
      cases tokens with
      | nil => simp at htokens
      | cons t ts =>
          rw [List.map_cons, List.map_cons, List.cons_append, List.cons.injEq] at htokens
          rw [List.forall_mem_cons] at hsizes
          obtain ⟨ts', hsizeWords, hts'⟩ := ih hsizes.2 htokens.2
          refine ⟨ts', ?_, hts'⟩
          simp [IdlType.sizeWords, htokens.1, hsizes.1, hsizeWords]

/-- The words of the name of a type, whether they are reserved elsewhere or not. -/
structure TypeWords where
  word : String
  sizes : List String
  isSizeWord_sizes : ∀ size ∈ sizes, IdlType.isSizeWord size = true
  takesSizeWords_word : sizes ≠ [] → IdlType.takesSizeWords word = true

namespace TypeWords

def text (n : TypeWords) : String := n.sizes.foldl (fun text size => text ++ " " ++ size) n.word

def tokens (n : TypeWords) : List TokenKind := .ident n.word :: n.sizes.map .ident

theorem reads_sizes (n : TypeWords) (hend : EndsSizes rest.head?) :
    Reads (IdlType.parseName n.word) (n.sizes.map .ident ++ rest) n.text rest := by
  intro s hs
  by_cases htakes : IdlType.takesSizeWords n.word = true
  · obtain ⟨tokens', hsizeWords, htokens'⟩ := sizeWords_of_kinds n.isSizeWord_sizes hend hs
    refine ⟨{ s with tokens := tokens' }, ?_, htokens'⟩
    simp [IdlType.parseName, htakes, hsizeWords, text]
  · have hsizes : n.sizes = [] := by
      by_contra hne
      exact htakes (n.takesSizeWords_word hne)
    refine ⟨s, ?_, ?_⟩
    · simp [IdlType.parseName, htakes, text, hsizes]
    · simpa [hsizes] using hs

end TypeWords

def TypeName.words (n : TypeName) : TypeWords :=
  ⟨n.word.val, n.sizes, n.isSizeWord_sizes, n.takesSizeWords_word⟩

/-- The token can start a type wherever one is read. -/
def StartsType (kind : TokenKind) : Prop :=
  kind = .punct .openParen ∨ ∃ word, kind = .ident word ∧ word ∉ reservedWords

theorem TypeForm.startsType (t : TypeForm) :
    ∃ kind kinds, t.tokens = kind :: kinds ∧ StartsType kind := by
  cases t with
  | name n nullable => exact ⟨_, _, rfl, .inr ⟨n.word.val, rfl, n.word_notMem⟩⟩
  | generic n params nullable => exact ⟨_, _, rfl, .inr ⟨n.word.val, rfl, n.word_notMem⟩⟩
  | union parts nullable => exact ⟨_, _, rfl, .inl rfl⟩

theorem TypeForm.head?_ne_ident (t : TypeForm) {word : String} (hword : word ∈ reservedWords) :
    (t.tokens ++ rest).head? ≠ some (.ident word) := by
  obtain ⟨kind, kinds, htokens, rfl | ⟨word', rfl, hword'⟩⟩ := t.startsType
  · simp [htokens]
  · rw [htokens]
    intro heq
    cases heq
    exact hword' hword

theorem TypeForm.head?_ne_punct (t : TypeForm) {mark : Punct} (hmark : mark ≠ .openParen) :
    (t.tokens ++ rest).head? ≠ some (.punct mark) := by
  obtain ⟨kind, kinds, htokens, rfl | ⟨word', rfl, _⟩⟩ := t.startsType
  · rw [htokens]
    intro heq
    cases heq
    exact hmark rfl
  · simp [htokens]

theorem reads_question (t : IdlType) (nullable : Bool)
    (hrest : rest.head? ≠ some (.punct .question)) :
    Reads (eatPunct .question >>= fun found => if found = true then pure t.nullable else pure t)
      (questionTokens nullable ++ rest) (t.nullableIf nullable) rest := by
  cases nullable with
  | true => exact Reads.eat_then (Reads.pure _ rest)
  | false => exact Reads.eat_else hrest (Reads.pure _ rest)

theorem ne_question_of_endsType (h : endsType rest.head? = true) :
    rest.head? ≠ some (.punct .question) := by
  intro heq
  rw [heq] at h
  cases h

theorem ne_openAngle_of_endsType (h : endsType rest.head? = true) :
    rest.head? ≠ some (.punct .openAngle) := by
  intro heq
  rw [heq] at h
  cases h

theorem endsSizes_of_endsType (h : endsType rest.head? = true) : EndsSizes rest.head? := by
  intro word heq
  rw [heq] at h
  simpa [endsType] using h

theorem endsSizes_question (nullable : Bool) (h : endsType rest.head? = true) :
    EndsSizes (questionTokens nullable ++ rest).head? := by
  cases nullable with
  | true => simp [questionTokens, EndsSizes]
  | false => exact endsSizes_of_endsType h

/-- A type and the tokens that it is spelled with. -/
structure TypePart where
  tokens : List TokenKind
  type : IdlType

namespace TypePart

/-- Further parts, each after a separator. -/
def moreTokens (separator : TokenKind) (parts : List TypePart) : List TokenKind :=
  parts.flatMap fun part => separator :: part.tokens

end TypePart

/-- The tokens spell the type, without extended attributes. -/
inductive TypeSpelling : List TokenKind → IdlType → Prop
  | name (n : TypeWords) (nullable : Bool) :
      TypeSpelling (n.tokens ++ questionTokens nullable)
        ((IdlType.named n.text).nullableIf nullable)
  | generic (n : TypeWords) (nullable : Bool) {first : TypePart} {others : List TypePart}
      (hfirst : TypeSpelling first.tokens first.type)
      (hothers : ∀ part ∈ others, TypeSpelling part.tokens part.type) :
      TypeSpelling
        (n.tokens ++ .punct .openAngle ::
          (first.tokens ++ (TypePart.moreTokens (.punct .comma) others ++
            .punct .closeAngle :: questionTokens nullable)))
        ((IdlType.wrap n.text (first.type :: others.map TypePart.type)).nullableIf nullable)
  | union (nullable : Bool) {first : TypePart} {others : List TypePart}
      (hfirst : TypeSpelling first.tokens first.type)
      (hothers : ∀ part ∈ others, TypeSpelling part.tokens part.type) :
      TypeSpelling
        (.punct .openParen ::
          (first.tokens ++ (TypePart.moreTokens (.ident "or") others ++
            .punct .closeParen :: questionTokens nullable)))
        ((IdlType.union (first.type :: others.map TypePart.type)).nullableIf nullable)

/-- The tokens are read as the type, given what follows does not go on with it. -/
def ReadsType (kinds : List TokenKind) (t : IdlType) : Prop :=
  ∀ n, kinds.length ≤ n → ∀ rest : List TokenKind, endsType rest.head? = true →
    Reads (IdlType.parseWith n) (kinds ++ rest) t rest

section Parts

variable {separator stop : TokenKind} (hseparator : endsType (some separator) = true)
  (hstop : endsType (some stop) = true)

include hseparator hstop in
theorem endsType_moreTokens (parts : List TypePart) (rest : List TokenKind) :
    endsType (TypePart.moreTokens separator parts ++ stop :: rest).head? = true := by
  cases parts with
  | nil => exact hstop
  | cons part parts => exact hseparator

include hseparator hstop in
theorem reads_parseMore (hne : stop ≠ separator) (parts : List TypePart)
    (hparts : ∀ part ∈ parts, ReadsType part.tokens part.type) {n : Nat}
    (hn : (TypePart.moreTokens separator parts).length ≤ n) (rest : List TokenKind) :
    Reads (IdlType.parseMore separator n) (TypePart.moreTokens separator parts ++ stop :: rest)
      (parts.map TypePart.type) (stop :: rest) := by
  induction parts generalizing n with
  | nil =>
      cases n with
      | zero => exact Reads.pure [] _
      | succ n => exact Reads.eat_else (by simpa [TypePart.moreTokens] using hne) (Reads.pure [] _)
  | cons part parts ih =>
      rw [List.forall_mem_cons] at hparts
      have hlength : part.tokens.length + (TypePart.moreTokens separator parts).length + 1 ≤ n := by
        simpa [TypePart.moreTokens, Nat.add_right_comm] using hn
      have htokens : TypePart.moreTokens separator (part :: parts) ++ stop :: rest =
          separator :: (part.tokens ++ (TypePart.moreTokens separator parts ++ stop :: rest)) := by
        simp [TypePart.moreTokens]
      cases n with
      | zero => omega
      | succ n =>
          have hends := endsType_moreTokens hseparator hstop parts rest
          have hpart := hparts.1 n (by omega) _ hends
          rw [htokens, IdlType.parseMore]
          exact Reads.eat_then (hpart.bind ((ih hparts.2 (by omega)).bind (Reads.pure _ _)))

end Parts

/-- A type is read as a whole. -/
theorem TypeSpelling.readsType {t : IdlType} (h : TypeSpelling kinds t) : ReadsType kinds t := by
  induction h with
  | name name nullable =>
      intro n hn rest hend
      have hquestion := ne_question_of_endsType hend
      cases n with
      | zero => simp [TypeWords.tokens] at hn
      | succ n =>
          rw [IdlType.parseWith, List.append_assoc]
          refine (ExtAttr.reads_no_list (by simp [TypeWords.tokens])).bind ?_
          refine Reads.eat_else (by simp [TypeWords.tokens]) ((Reads.advance _ _).bind ?_)
          refine (name.reads_sizes (endsSizes_question nullable hend)).bind ?_
          refine Reads.eat_else ?_ ((Reads.pure _ _).bind (reads_question _ nullable hquestion))
          cases nullable with
          | true => simp [questionTokens]
          | false => exact ne_openAngle_of_endsType hend
  | @generic name nullable first others _ _ ihfirst ihothers =>
      intro n hn rest hend
      have hquestion := ne_question_of_endsType hend
      cases n with
      | zero => simp [TypeWords.tokens] at hn
      | succ n =>
          simp only [List.length_append, List.length_cons] at hn
          have hcomma : endsType (some (.punct .comma)) = true := rfl
          have hclose : endsType (some (.punct .closeAngle)) = true := rfl
          have hfirst := ihfirst n (by omega) _ (endsType_moreTokens hcomma hclose others
            (questionTokens nullable ++ rest))
          have hothers := reads_parseMore hcomma hclose (by decide) others ihothers (n := n)
            (by omega) (questionTokens nullable ++ rest)
          rw [IdlType.parseWith]
          simp only [List.append_assoc, List.cons_append]
          refine (ExtAttr.reads_no_list (by simp [TypeWords.tokens])).bind ?_
          refine Reads.eat_else (by simp [TypeWords.tokens]) ((Reads.advance _ _).bind ?_)
          refine (name.reads_sizes (by simp [EndsSizes])).bind ?_
          refine Reads.eat_then (hfirst.bind (hothers.bind ((Reads.expectPunct _ _).bind ?_)))
          -- A wrapper with a single parameter keeps it as a tree.
          cases others with
          | nil => exact (Reads.pure _ _).bind (reads_question _ nullable hquestion)
          | cons second others => exact (Reads.pure _ _).bind (reads_question _ nullable hquestion)
  | @union nullable first others _ _ ihfirst ihothers =>
      intro n hn rest hend
      have hquestion := ne_question_of_endsType hend
      cases n with
      | zero => simp at hn
      | succ n =>
          simp only [List.length_append, List.length_cons] at hn
          have hor : endsType (some (.ident "or")) = true := by decide
          have hclose : endsType (some (.punct .closeParen)) = true := rfl
          have hfirst := ihfirst n (by omega) _ (endsType_moreTokens hor hclose others
            (questionTokens nullable ++ rest))
          have hothers := reads_parseMore hor hclose (by decide) others ihothers (n := n)
            (by omega) (questionTokens nullable ++ rest)
          rw [IdlType.parseWith]
          simp only [List.append_assoc, List.cons_append]
          refine (ExtAttr.reads_no_list (by simp)).bind ?_
          refine Reads.eat_then (hfirst.bind (hothers.bind ((Reads.expectPunct _ _).bind ?_)))
          exact reads_question _ nullable hquestion

mutual

/-- The tokens of a form spell its type. -/
theorem TypeForm.spelling (t : TypeForm) : TypeSpelling t.tokens t.type := by
  match t with
  | .name n nullable => exact .name n.words nullable
  | .generic n params nullable =>
      obtain ⟨first, others, htokens, htypes, hfirst, hothers⟩ := params.spelling (.punct .comma)
      have hspelling := TypeSpelling.generic n.words nullable hfirst hothers
      rw [TypeForm.tokens, TypeForm.type, htokens, htypes]
      simpa [TypeName.words, TypeWords.tokens, TypeWords.text, TypeName.tokens, TypeName.text]
        using hspelling
  | .union parts nullable =>
      obtain ⟨first, others, htokens, htypes, hfirst, hothers⟩ := parts.spelling (.ident "or")
      have hspelling := TypeSpelling.union nullable hfirst hothers
      rw [TypeForm.tokens, TypeForm.type, htokens, htypes]
      simpa using hspelling

theorem TypeForms.spelling (ts : TypeForms) (separator : TokenKind) :
    ∃ (first : TypePart) (others : List TypePart),
      ts.tokens separator = first.tokens ++ TypePart.moreTokens separator others ∧
        ts.types = first.type :: others.map TypePart.type ∧
        TypeSpelling first.tokens first.type ∧
        ∀ part ∈ others, TypeSpelling part.tokens part.type := by
  match ts with
  | .one t => exact ⟨⟨t.tokens, t.type⟩, [], by simp [TypeForms.tokens, TypePart.moreTokens], rfl,
      t.spelling, by simp⟩
  | .cons t ts =>
      obtain ⟨first, others, htokens, htypes, hfirst, hothers⟩ := ts.spelling separator
      refine ⟨⟨t.tokens, t.type⟩, first :: others, ?_, ?_, t.spelling,
        List.forall_mem_cons.mpr ⟨hfirst, hothers⟩⟩
      · simp [TypeForms.tokens, TypePart.moreTokens, htokens]
      · rw [TypeForms.types, htypes, List.map_cons]

end

theorem TypeForm.reads_parse (t : TypeForm) (hend : endsType rest.head? = true) :
    Reads IdlType.parse (t.tokens ++ rest) t.type rest :=
  (Reads.remaining _).bind (t.spelling.readsType _ (by simp) rest hend)

/-- A type before a declared name. -/
theorem TypeForm.reads_parse_escaped (t : TypeForm) (name : PlainName) (rest : List TokenKind) :
    Reads IdlType.parse (t.tokens ++ name.escaped :: rest) t.type (name.escaped :: rest) := by
  apply t.reads_parse
  have hne : ∀ size ∈ ["short", "long", "float", "double"], "_" ++ name.text ≠ size := by
    have hhead : ∀ size ∈ ["short", "long", "float", "double"], size.toList.head? ≠ some '_' := by
      decide
    exact fun size hsize heq => name.escaped_ne (hhead size hsize) (congrArg TokenKind.ident heq)
  simp_all [PlainName.escaped, endsType, IdlType.isSizeWord]

/-! ## Default values -/

theorem DefaultForm.reads_tokens (d : DefaultForm) (rest : List TokenKind) :
    Reads parseDefault (d.tokens ++ rest) d.value rest := by
  cases d with
  | text value => exact (Reads.advance _ _).bind (Reads.pure _ _)
  | number digits => exact (Reads.advance _ _).bind (Reads.pure _ _)
  | word w => exact (Reads.advance _ _).bind (Reads.pure _ _)
  | negativeInfinity =>
      exact (Reads.advance _ _).bind ((Reads.advance _ _).bind (Reads.pure "-Infinity" _))
  | emptyList =>
      exact (Reads.advance _ _).bind ((Reads.expectPunct _ _).bind (Reads.pure _ _))
  | emptyDictionary =>
      exact (Reads.advance _ _).bind ((Reads.expectPunct _ _).bind (Reads.pure _ _))

/-- A default value, or none, before whatever is done with it. -/
theorem reads_defaultTokens {α : Type} (d : Option DefaultForm)
    (hrest : rest.head? ≠ some (.punct .equals)) {f : Option String → Parser α} {a : α}
    {after : List TokenKind} (hf : Reads (f (d.map DefaultForm.value)) rest a after) :
    Reads (eatPunct .equals >>= fun found =>
        if found = true then (some <$> parseDefault) >>= f else pure none >>= f)
      (defaultTokens d ++ rest) a after := by
  cases d with
  | none => exact Reads.eat_else hrest ((Reads.pure none rest).bind hf)
  | some d => exact Reads.eat_then ((d.reads_tokens rest).map.bind hf)

end IdlBindings
