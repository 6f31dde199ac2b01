import IdlBindings.Proofs.Token.Decomposition

/-!
# Tokens joined by separators

A list of tokens is printed by writing the spellings one after the other, with a separator between
each two. A separator is white space, a comment, or several of them, and need not be the same
everywhere. No token goes on into a separator: separators start with white space or a slash, and
neither belongs to a token. So reading what was printed gives back the list, provided each token has
the form by which its kind is recognized, and never otherwise.

## Main definitions

* `TokenKind.HasForm`: tokens that can be printed
* `Separator`: what may stand between two tokens
* `TokenKind.joined`: the spellings of tokens with separators between them
-/
namespace IdlBindings

def IsLetter (c : Char) : Prop := 'A' ≤ c ∧ c ≤ 'Z' ∨ 'a' ≤ c ∧ c ≤ 'z'

def IsDecimal (c : Char) : Prop := '0' ≤ c ∧ c ≤ '9'

/-- The token is written as its kind asks for, told by its characters. -/
inductive TokenKind.HasForm : TokenKind → Prop
  | ident {c : Char} {cs : List Char} (hc : IsLetter c ∨ c = '_')
      (hcs : ∀ d ∈ cs, IsLetter d ∨ IsDecimal d ∨ d = '_' ∨ d = '-') :
      HasForm (.ident (String.ofList (c :: cs)))
  | number {c : Char} {cs : List Char} (hc : IsDecimal c)
      (hcs : ∀ d ∈ cs, IsLetter d ∨ IsDecimal d ∨ d = '.') :
      HasForm (.number (String.ofList (c :: cs)))
  | negative {c : Char} {cs : List Char} (hc : IsDecimal c)
      (hcs : ∀ d ∈ cs, IsLetter d ∨ IsDecimal d ∨ d = '.') :
      HasForm (.number (String.ofList ('-' :: c :: cs)))
  | text {cs : List Char} (hcs : ∀ d ∈ cs, d ≠ '"' ∧ d ≠ '\n') : HasForm (.text (String.ofList cs))
  | punct (mark : Punct) : HasForm (.punct mark)
  | ellipsis : HasForm .ellipsis

/-- White space and complete comments, at least one character of them. -/
structure Separator where
  text : List Char
  gap_text : Gap text
  text_ne_nil : text ≠ []

/-- The spellings of the tokens, each but the last with the next separator behind it. -/
def TokenKind.joined : (Nat → Separator) → List TokenKind → List Char
  | _, [] => []
  | _, [kind] => kind.spelling
  | separators, kind :: next :: kinds =>
    kind.spelling ++ ((separators 0).text ++ joined (fun i => separators (i + 1)) (next :: kinds))

variable {c : Char} {cs gap rest : List Char} {kinds : List TokenKind}

/-! ## The forms of tokens -/

theorem isAlpha_iff : c.isAlpha = true ↔ IsLetter c := by
  rw [isAlpha_iff_toNat]
  exact Iff.rfl

theorem isDigit_iff : c.isDigit = true ↔ IsDecimal c := by
  rw [isDigit_iff_toNat]
  exact Iff.rfl

theorem isIdentStart_iff : isIdentStart c = true ↔ IsLetter c ∨ c = '_' := by
  rw [isIdentStart, Bool.or_eq_true, isAlpha_iff, beq_iff_eq]

theorem isIdentPart_iff :
    isIdentPart c = true ↔ IsLetter c ∨ IsDecimal c ∨ c = '_' ∨ c = '-' := by
  simp only [isIdentPart, Char.isAlphanum, Bool.or_eq_true, isAlpha_iff, isDigit_iff, beq_iff_eq,
    or_assoc]

theorem isNumberPart_iff : isNumberPart c = true ↔ IsLetter c ∨ IsDecimal c ∨ c = '.' := by
  simp only [isNumberPart, Char.isAlphanum, Bool.or_eq_true, isAlpha_iff, isDigit_iff, beq_iff_eq,
    or_assoc]

theorem isIdentifier_ofList :
    isIdentifier (String.ofList (c :: cs)) = true ↔
      (IsLetter c ∨ c = '_') ∧ ∀ d ∈ cs, IsLetter d ∨ IsDecimal d ∨ d = '_' ∨ d = '-' := by
  simp only [isIdentifier, String.toList_ofList, Bool.and_eq_true, List.all_eq_true,
    isIdentStart_iff, isIdentPart_iff]

/-- What stands in a numeric literal behind its sign. -/
theorem isNumeral_iff : (startsNumber cs && cs.all isNumberPart) = true ↔
    ∃ c ds, cs = c :: ds ∧ IsDecimal c ∧ ∀ d ∈ ds, IsLetter d ∨ IsDecimal d ∨ d = '.' := by
  cases cs with
  | nil => simp [startsNumber]
  | cons c ds =>
      simp only [startsNumber, List.all_cons, Bool.and_eq_true, List.all_eq_true, isDigit_iff,
        isNumberPart_iff, List.cons.injEq]
      constructor
      · rintro ⟨hc, -, hds⟩
        exact ⟨c, ds, ⟨rfl, rfl⟩, hc, hds⟩
      · rintro ⟨_, _, ⟨rfl, rfl⟩, hc, hds⟩
        exact ⟨hc, .inr (.inl hc), hds⟩

theorem isNumber_iff {digits : String} : isNumber digits = true ↔
    ∃ c ds, (digits.toList = c :: ds ∨ digits.toList = '-' :: c :: ds) ∧ IsDecimal c ∧
      ∀ d ∈ ds, IsLetter d ∨ IsDecimal d ∨ d = '.' := by
  rw [isNumber]
  split
  · next hnil => simp [hnil]
  · next cs hsigned =>
      have hminus : ¬IsDecimal '-' := by unfold IsDecimal; decide
      rw [isNumeral_iff, hsigned]
      constructor
      · rintro ⟨c, ds, rfl, hc, hds⟩
        exact ⟨c, ds, .inr rfl, hc, hds⟩
      · rintro ⟨c, ds, hcs | hcs, hc, hds⟩
        · obtain ⟨rfl, rfl⟩ := List.cons.inj hcs
          exact absurd hc hminus
        · exact ⟨c, ds, (List.cons.inj hcs).2, hc, hds⟩
  · next hunsigned =>
      rw [isNumeral_iff]
      constructor
      · rintro ⟨c, ds, hcs, hc, hds⟩
        exact ⟨c, ds, .inl hcs, hc, hds⟩
      · rintro ⟨c, ds, hcs | hcs, hc, hds⟩
        · exact ⟨c, ds, hcs, hc, hds⟩
        · exact absurd hcs (hunsigned _)

theorem TokenKind.hasForm_iff (kind : TokenKind) : kind.HasForm ↔ kind.isWritable = true := by
  constructor
  · intro h
    cases h with
    | ident hc hcs => exact isIdentifier_ofList.mpr ⟨hc, hcs⟩
    | number hc hcs => exact isNumber_iff.mpr ⟨_, _, .inl String.toList_ofList, hc, hcs⟩
    | negative hc hcs => exact isNumber_iff.mpr ⟨_, _, .inr String.toList_ofList, hc, hcs⟩
    | text hcs => simpa [isWritable, isQuotable] using hcs
    | punct mark => rfl
    | ellipsis => rfl
  · intro h
    cases kind with
    | ident name =>
        cases hname : name.toList with
        | nil => simp [isWritable, isIdentifier, hname] at h
        | cons c cs =>
            rw [← @String.ofList_toList name, hname] at h ⊢
            obtain ⟨hc, hcs⟩ := isIdentifier_ofList.mp h
            exact .ident hc hcs
    | number digits =>
        obtain ⟨c, ds, hdigits, hc, hds⟩ := isNumber_iff.mp h
        rw [← @String.ofList_toList digits]
        rcases hdigits with hdigits | hdigits
        · rw [hdigits]
          exact .number hc hds
        · rw [hdigits]
          exact .negative hc hds
    | text value =>
        rw [← @String.ofList_toList value]
        exact .text (by simpa [isWritable, isQuotable] using h)
    | punct mark => exact .punct mark
    | ellipsis => exact .ellipsis

theorem TokenKind.areWritable_iff (kinds : List TokenKind) :
    areWritable kinds = true ↔ ∀ kind ∈ kinds, kind.HasForm := by
  simp only [areWritable, List.all_eq_true, hasForm_iff]

/-! ## Where tokens end -/

theorem Gap.head? (h : Gap gap) : ∀ c ∈ gap.head?, isBlank c = true ∨ c = '/' := by
  intro c hc
  cases h with
  | nil => cases hc
  | blank hblank _ =>
      cases hc
      exact .inl hblank
  | lineComment _ _ =>
      cases hc
      exact .inr rfl
  | blockComment _ _ =>
      cases hc
      exact .inr rfl

theorem isAlphanum_eq_false_of_isBlank (hc : isBlank c = true) : c.isAlphanum = false := by
  by_contra halphanum
  rw [Bool.not_eq_false] at halphanum
  rw [isBlank_eq_false_of_isAlphanum halphanum] at hc
  cases hc

/-- No token goes on into white space. -/
theorem TokenKind.extendedBy_of_isBlank (kind : TokenKind) (hc : isBlank c = true) :
    kind.extendedBy c = false := by
  have halphanum := isAlphanum_eq_false_of_isBlank hc
  have hmark : ∀ d, isBlank d = false → (c == d) = false := by
    intro d hd
    rw [beq_eq_false_iff_ne]
    rintro rfl
    rw [hc] at hd
    cases hd
  have hident : isIdentPart c = false := by
    rw [isIdentPart, halphanum, hmark '_' (by decide), hmark '-' (by decide)]
    rfl
  have hnumber : isNumberPart c = false := by
    rw [isNumberPart, halphanum, hmark '.' (by decide)]
    rfl
  have hdigit : c.isDigit = false := (Bool.or_eq_false_iff.mp halphanum).2
  cases kind with
  | ident name => exact hident
  | number digits => exact hnumber
  | punct mark =>
      cases mark with
      | minus => exact hdigit
      | _ => rfl
  | _ => rfl

/-- No token goes on into a comment. -/
theorem TokenKind.extendedBy_slash (kind : TokenKind) : kind.extendedBy '/' = false := by
  cases kind with
  | punct mark => cases mark <;> rfl
  | _ => rfl

theorem Separator.extendedBy_head? (separator : Separator) (kind : TokenKind) :
    ∀ c ∈ (separator.text ++ rest).head?, kind.extendedBy c = false := by
  obtain ⟨c, cs, htext⟩ := List.exists_cons_of_ne_nil separator.text_ne_nil
  rintro d hd
  rw [htext, List.cons_append, List.head?_cons, Option.mem_some] at hd
  subst hd
  rcases separator.gap_text.head? c (by rw [htext]; rfl) with hblank | rfl
  · exact kind.extendedBy_of_isBlank hblank
  · exact kind.extendedBy_slash

/-! ## Joined tokens -/

/-- Separators keep tokens apart. -/
theorem Layout.of_joined (separators : Nat → Separator)
    (hkinds : TokenKind.areWritable kinds = true) :
    Layout kinds (TokenKind.joined separators kinds) := by
  induction kinds generalizing separators with
  | nil => exact .nil .nil
  | cons kind kinds ih =>
      rw [TokenKind.areWritable_cons, Bool.and_eq_true] at hkinds
      cases kinds with
      | nil => simpa [TokenKind.joined] using Layout.cons .nil hkinds.1 (.nil .nil) (by simp)
      | cons next kinds =>
          have hjoined := ih (fun i => separators (i + 1)) hkinds.2
          have hrest := hjoined.after_gap (separators 0).gap_text
          exact Layout.cons .nil hkinds.1 hrest ((separators 0).extendedBy_head? kind)

/-- **Reading inverts printing.** The spellings of tokens with any separators between them are read
as exactly these tokens, up to the end of the text, if and only if every token has the form of its
kind. -/
theorem reading_inverts_joining (separators : Nat → Separator) (kinds : List TokenKind) :
    (∃ s, TokenStream.ofText (String.ofList (TokenKind.joined separators kinds)) = .ok s ∧
      s.kinds = kinds ∧ s.stop = .behind (TokenKind.joined separators kinds)) ↔
      ∀ kind ∈ kinds, kind.HasForm := by
  rw [← TokenKind.areWritable_iff]
  constructor
  · rintro ⟨s, hs, rfl, _⟩
    obtain ⟨_, rest, _, hcut⟩ := exists_cut_of_ofText hs
    exact hcut.areWritable
  · intro hkinds
    obtain ⟨s, hs, hskinds⟩ := TokenStream.ofText_of_layout (Layout.of_joined separators hkinds)
    obtain ⟨hstop, _⟩ := exists_cut_of_ofText hs
    exact ⟨s, hs, hskinds, by rwa [String.toList_ofList] at hstop⟩

-- A hyphen by itself, at the end of a name and before a digit, a quote in a comment and the start
-- of a comment in quotes.
example : (TokenStream.ofText "- 4/*\"*/a- -1//\n\"/*\"").map TokenStream.kinds =
    .ok [.punct .minus, .number "4", .ident "a-", .number "-1", .text "/*"] := rfl

end IdlBindings
