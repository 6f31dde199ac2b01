import IdlBindings.Proofs.Token.Decomposition

/-!
# Texts that cannot be read

A character that belongs to no token and no white space can only stand in a comment or in a text
literal. Literals and line comments end on their line, so at the start of a line such a character is
in a block comment or nowhere: a text with one there cannot be read, unless a block comment has been
opened before.

## Main definitions

* `isStray`: a character that only comments and text literals hold
* `StartsLine`: what follows some characters is at the start of a line
-/
namespace IdlBindings

/-- The character starts no piece and goes on with none but a comment or a text literal. -/
def isStray (c : Char) : Bool :=
  !isBlank c && !isIdentPart c && !isNumberPart c && (Punct.ofChar? c).isNone && c != '"' &&
    c != '/'

example : isStray '#' = true ∧ isStray '&' = true ∧ isStray '*' = false := by decide

/-- What stands behind these characters is at the start of a line. -/
def StartsLine (before : List Char) : Prop := ∀ c ∈ before.getLast?, c = '\n'

variable {c : Char} {before after gap rest text xs ys : List Char} {kind : TokenKind}
  {tokens : List Token}

theorem StartsLine.of_append (h : StartsLine (xs ++ ys)) : StartsLine ys := by
  intro c hc
  apply h
  rw [List.getLast?_append, Option.mem_def.mp hc]
  rfl

/-- A character behind something on the same line is not at the start of the line. -/
theorem StartsLine.eq_nil (h : StartsLine xs) (hxs : '\n' ∉ xs) : xs = [] := by
  rcases List.eq_nil_or_concat xs with hnil | ⟨init, c, rfl⟩
  · exact hnil
  · have hc : c = '\n' := h c (by simp)
    simp [hc] at hxs

/-- A character of two pieces put together is in the first or in the second. -/
theorem split_of_append_eq (h : xs ++ ys = before ++ c :: after) :
    (∃ more, xs = before ++ c :: more) ∨ ∃ less, before = xs ++ less ∧ ys = less ++ c :: after := by
  rcases List.append_eq_append_iff.mp h with ⟨less, hbefore, hys⟩ | ⟨more, hxs, hafter⟩
  · exact .inr ⟨less, hbefore, hys⟩
  · cases more with
    | nil => exact .inr ⟨[], by simpa using hxs.symm, by simpa using hafter.symm⟩
    | cons d more =>
        obtain ⟨rfl, _⟩ := List.cons.inj hafter
        exact .inl ⟨more, hxs⟩

/-! ## Tokens and gaps -/

theorem mem_spelling_of_isStray (hc : isStray c = true) (hkind : kind.isWritable = true)
    (hmem : c ∈ kind.spelling) : ∃ value, kind = .text value := by
  simp only [isStray, Bool.and_eq_true, Bool.not_eq_true', Option.isNone_iff_eq_none, bne_iff_ne]
    at hc
  obtain ⟨⟨⟨⟨⟨_, hident⟩, hnumber⟩, hpunct⟩, _⟩, _⟩ := hc
  cases kind with
  | text value => exact ⟨value, rfl⟩
  | ident name =>
      simp only [TokenKind.isWritable, isIdentifier] at hkind
      simp only [TokenKind.spelling] at hmem
      split at hkind
      · cases hkind
      · next d ds hname =>
          rw [Bool.and_eq_true, List.all_eq_true] at hkind
          rw [hname, List.mem_cons] at hmem
          rcases hmem with rfl | hmem
          · simp [isIdentPart_of_isIdentStart hkind.1] at hident
          · simp [hkind.2 c hmem] at hident
  | number digits =>
      simp only [TokenKind.isWritable, isNumber] at hkind
      simp only [TokenKind.spelling] at hmem
      split at hkind
      · cases hkind
      · next ds hdigits =>
          rw [Bool.and_eq_true, List.all_eq_true] at hkind
          rw [hdigits, List.mem_cons] at hmem
          rcases hmem with rfl | hmem
          · cases hpunct
          · simp [hkind.2 c hmem] at hnumber
      · rw [Bool.and_eq_true, List.all_eq_true] at hkind
        simp [hkind.2 c hmem] at hnumber
  | punct mark =>
      obtain rfl := List.mem_singleton.mp hmem
      simp at hpunct
  | ellipsis =>
      have hdot : c = '.' := by simpa [TokenKind.spelling] using hmem
      subst hdot
      cases hnumber

theorem ne_of_isStray (hc : isStray c = true) :
    isBlank c = false ∧ c ≠ '"' ∧ c ≠ '/' ∧ c ≠ '*' := by
  refine ⟨?_, ?_, ?_, ?_⟩
  · by_contra hblank
    simp [isStray, hblank] at hc
  all_goals
    rintro rfl
    revert hc
    decide

/-- A gap has a stray character at the start of a line only in a block comment. -/
theorem Gap.opens_of_isStray (hgap : Gap gap) (heq : gap = before ++ c :: after)
    (hc : isStray c = true) (hline : StartsLine before) : ['/', '*'] <:+: before := by
  obtain ⟨hblank, _, hslash, hstar⟩ := ne_of_isStray hc
  induction hgap generalizing before with
  | nil => simp at heq
  | @blank d cs hd _ ih =>
      cases before with
      | nil =>
          obtain ⟨rfl, _⟩ := List.cons.inj heq
          simp [hblank] at hd
      | cons e before =>
          obtain ⟨rfl, htail⟩ := List.cons.inj heq
          exact (ih htail (@StartsLine.of_append [d] _ hline)).trans (List.suffix_cons d _).isInfix
  | @lineComment body cs hbody _ ih =>
      have heq : ('/' :: '/' :: body ++ ['\n']) ++ cs = before ++ c :: after := by
        simpa using heq
      rcases split_of_append_eq heq with ⟨more, hcomment⟩ | ⟨less, rfl, hcs⟩
      · -- The comment is on the line of the character, so it would have to start with it.
        have hfront := congrArg List.dropLast hcomment
        rw [List.dropLast_concat, List.dropLast_append_cons] at hfront
        have hnil : before = [] := by
          apply hline.eq_nil
          intro hmem
          have hmem' : '\n' ∈ '/' :: '/' :: body := by
            rw [hfront]
            exact List.mem_append_left _ hmem
          simp [hbody] at hmem'
        rw [hnil] at hcomment
        exact absurd (List.cons.inj hcomment).1.symm hslash
      · exact (ih hcs hline.of_append).trans (List.suffix_append _ _).isInfix
  | @blockComment body cs hbody _ ih =>
      match before with
      | [] => exact absurd (List.cons.inj heq).1.symm hslash
      | [d] => exact absurd (List.cons.inj (List.cons.inj heq).2).1.symm hstar
      | d :: e :: before =>
          obtain ⟨rfl, htail⟩ := List.cons.inj heq
          obtain ⟨rfl, _⟩ := List.cons.inj htail
          exact (List.prefix_append ['/', '*'] before).isInfix

/-- A token has no stray character at the start of a line. -/
theorem TokenKind.not_startsLine (hkind : kind.isWritable = true) (hc : isStray c = true)
    (heq : kind.spelling = before ++ c :: after) : ¬StartsLine before := by
  intro hline
  obtain ⟨value, rfl⟩ := mem_spelling_of_isStray hc hkind (by simp [heq])
  have hvalue : ∀ d ∈ value.toList, d ≠ '"' ∧ d ≠ '\n' := by
    simpa [TokenKind.isWritable, isQuotable] using hkind
  have hnil : before = [] := by
    apply hline.eq_nil
    intro hmem
    have hmem' : '\n' ∈ (TokenKind.text value).spelling := by
      rw [heq]
      exact List.mem_append_left _ hmem
    simp only [TokenKind.spelling, List.mem_cons, List.mem_append, List.cons_append] at hmem'
    rcases hmem' with h | h | h | h
    · cases h
    · exact (hvalue _ h).2 rfl
    · cases h
    · cases h
  rw [hnil] at heq
  exact (ne_of_isStray hc).2.1 (List.cons.inj heq).1.symm

/-! ## Texts -/

/-- A text that is cut has a stray character at the start of a line only in a block comment. -/
theorem Cut.opens_of_isStray {start : List Char} (hcut : Cut rest start tokens text)
    (hrest : IsReadEnd rest) (heq : text = before ++ c :: after) (hc : isStray c = true)
    (hline : StartsLine before) : ['/', '*'] <:+: before := by
  induction hcut generalizing before with
  | stop hgap =>
      rcases split_of_append_eq heq with ⟨more, hmore⟩ | ⟨less, rfl, hless⟩
      · exact hgap.opens_of_isStray hmore hc hline
      · -- The rest is a comment on one line.
        rcases hrest with rfl | ⟨body, hbody, rfl⟩
        · simp at hless
        · have hnil : less = [] := by
            apply hline.of_append.eq_nil
            intro hmem
            have hmem' : '\n' ∈ '/' :: '/' :: body := by
              rw [hless]
              exact List.mem_append_left _ hmem
            simp [hbody] at hmem'
          rw [hnil] at hless
          exact absurd (List.cons.inj hless).1.symm (ne_of_isStray hc).2.2.1
  | token hgap hkind _ _ ih =>
      rw [List.append_assoc] at heq
      rcases split_of_append_eq heq with ⟨more, hmore⟩ | ⟨less, rfl, hless⟩
      · exact hgap.opens_of_isStray hmore hc hline
      · rcases split_of_append_eq hless with ⟨more, hmore⟩ | ⟨less', rfl, hless'⟩
        · exact absurd hline.of_append (TokenKind.not_startsLine hkind hc hmore)
        · have hinfix := ih hless' hline.of_append.of_append
          rw [← List.append_assoc]
          exact hinfix.trans (List.suffix_append _ _).isInfix

/-- **A stray character cannot be read** at the start of a line with no block comment open. -/
theorem ofText_ne_ok_of_isStray {source : String} (heq : source.toList = before ++ c :: after)
    (hc : isStray c = true) (hline : StartsLine before) (hclosed : ¬['/', '*'] <:+: before)
    (s : TokenStream) : TokenStream.ofText source ≠ .ok s := by
  intro hs
  obtain ⟨_, rest, hrest, hcut⟩ := exists_cut_of_ofText hs
  exact hclosed (hcut.opens_of_isStray hrest heq hc hline)

end IdlBindings
