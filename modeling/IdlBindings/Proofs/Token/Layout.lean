import IdlBindings.Token.Lexer
import Mathlib.Data.List.Infix

/-!
# Layouts of tokens

A layout writes tokens one after the other, with white space and comments between them. Nothing has
to stand between two tokens unless the second would be taken for a part of the first. Reading a
layout gives back its tokens.

## Main definitions

* `TokenKind.isWritable`: the tokens that can be written
* `Gap`: white space and complete comments
* `Layout`: a text of tokens
* `TokenKind.spaced`: the text of tokens with spaces between them
* `Lexes`: reading a text gives tokens, wherever the text starts
-/
namespace IdlBindings

/-! ## Spellings -/

def isIdentifier (name : String) : Bool :=
  match name.toList with
  | [] => false
  | c :: cs => isIdentStart c && cs.all isIdentPart

/-- A digit, after a hyphen if there is one, and whatever a numeric literal runs over. -/
def isNumber (digits : String) : Bool :=
  match digits.toList with
  | [] => false
  | '-' :: cs => startsNumber cs && cs.all isNumberPart
  | cs => startsNumber cs && cs.all isNumberPart

/-- A text literal has no escapes, so it can hold no quote, and it ends on its line. -/
def isQuotable (value : String) : Bool := value.toList.all fun c => c ≠ '"' && c ≠ '\n'

namespace TokenKind

/-- The token has the form that its spelling is read by. -/
def isWritable : TokenKind → Bool
  | ident name => isIdentifier name
  | text value => isQuotable value
  | number digits => isNumber digits
  | punct _ => true
  | ellipsis => true

/-- The token with the character right after it is not read as the token. -/
def extendedBy : TokenKind → Char → Bool
  | ident _, c => isIdentPart c
  | number _, c => isNumberPart c
  | punct .minus, c => c.isDigit
  | _, _ => false

end TokenKind

/-- White space and complete comments. -/
inductive Gap : List Char → Prop
  | nil : Gap []
  | blank {c : Char} {cs : List Char} (hc : isBlank c = true) (hcs : Gap cs) : Gap (c :: cs)
  | lineComment {body cs : List Char} (hbody : '\n' ∉ body) (hcs : Gap cs) :
      Gap ('/' :: '/' :: body ++ '\n' :: cs)
  | blockComment {body cs : List Char} (hbody : ¬['*', '/'] <:+: body) (hcs : Gap cs) :
      Gap ('/' :: '*' :: body ++ '*' :: '/' :: cs)

/-- Tokens in order, each after a gap, with a gap at the end. -/
inductive Layout : List TokenKind → List Char → Prop
  | nil {gap : List Char} (hgap : Gap gap) : Layout [] gap
  | cons {kind : TokenKind} {kinds : List TokenKind} {gap rest : List Char} (hgap : Gap gap)
      (hkind : kind.isWritable = true) (hrest : Layout kinds rest)
      (hapart : ∀ c ∈ rest.head?, kind.extendedBy c = false) :
      Layout (kind :: kinds) (gap ++ kind.spelling ++ rest)

/-- The kinds of the tokens of a stream. -/
def TokenStream.kinds (s : TokenStream) : List TokenKind := s.tokens.map Token.kind

/-- The stream of a text in a single line, with the place of each token in it. -/
def TokenStream.inLine (tokens : List (TokenKind × Nat)) (length : Nat) : TokenStream where
  tokens := tokens.map fun token => ⟨token.1, ⟨token.2, 1, token.2 + 1⟩⟩
  stop := ⟨length, 1, length + 1⟩

/-- Reading the text gives the tokens, wherever it starts. -/
def Lexes (cs : List Char) (kinds : List TokenKind) : Prop :=
  ∀ n p, cs.length ≤ n → ∃ s, lexFrom n p cs = .ok s ∧ s.kinds = kinds

variable {c : Char} {cs rest body gap : List Char} {kind : TokenKind} {kinds : List TokenKind}

/-! ## Steps of reading -/

theorem Lexes.nil : Lexes [] [] := by
  intro n p _
  exact ⟨⟨[], p⟩, by cases n <;> rfl, rfl⟩

/-- What reading does with the piece at the front. -/
theorem lexFrom_succ_cons (n : Nat) (p : Position) (c : Char) (cs : List Char) :
    lexFrom (n + 1) p (c :: cs) =
      match scan c cs with
      | .error fault => .error ⟨fault, p⟩
      | .ok piece =>
        match lexFrom n (p.after piece.text) piece.rest with
        | .error e => .error e
        | .ok stream =>
          match piece.kind with
          | none => .ok stream
          | some kind => .ok { stream with tokens := ⟨kind, p⟩ :: stream.tokens } := by
  with_unfolding_all rfl

/-- One piece at the front. -/
theorem Lexes.step {piece : Piece} (hscan : scan c cs = .ok piece)
    (hrest : Lexes piece.rest kinds) :
    Lexes (c :: cs) (piece.kind.toList ++ kinds) := by
  intro n p hn
  have hlt := length_rest_lt_of_scan hscan
  match n with
  | 0 => simp at hn
  | n + 1 =>
      obtain ⟨s, hlex, hkinds⟩ := hrest n (p.after piece.text) (by omega)
      cases hkind : piece.kind with
      | none => exact ⟨s, by simp only [lexFrom_succ_cons, hscan, hlex, hkind], hkinds⟩
      | some kind =>
          refine ⟨{ s with tokens := ⟨kind, p⟩ :: s.tokens }, ?_, ?_⟩
          · simp only [lexFrom_succ_cons, hscan, hlex, hkind]
          · simp [← hkinds, TokenStream.kinds]

/-! ## Runs -/

theorem takeWhile_append_of_stop {p : Char → Bool} (hcs : cs.all p = true)
    (hstop : ∀ c ∈ rest.head?, p c = false) : (cs ++ rest).takeWhile p = cs := by
  rw [List.takeWhile_append_of_pos fun c hc => List.all_eq_true.mp hcs c hc]
  cases rest with
  | nil => simp
  | cons c rest => simp [hstop c rfl]

theorem dropWhile_append_of_stop {p : Char → Bool} (hcs : cs.all p = true)
    (hstop : ∀ c ∈ rest.head?, p c = false) : (cs ++ rest).dropWhile p = rest := by
  rw [List.dropWhile_append_of_pos fun c hc => List.all_eq_true.mp hcs c hc]
  cases rest with
  | nil => rfl
  | cons c rest => simp [hstop c rfl]

theorem run_append_of_stop {p : Char → Bool} {toKind : String → Option TokenKind}
    (hcs : cs.all p = true) (hstop : ∀ c ∈ rest.head?, p c = false) :
    Piece.run p toKind (cs ++ rest) = ⟨toKind (String.ofList cs), cs, rest⟩ := by
  rw [Piece.run, takeWhile_append_of_stop hcs hstop, dropWhile_append_of_stop hcs hstop]

/-! ## Gaps -/

theorem Lexes.blanks {blanks : List Char} (hblanks : blanks.all isBlank = true)
    (hstop : ∀ c ∈ rest.head?, isBlank c = false) (hrest : Lexes rest kinds) :
    Lexes (blanks ++ rest) kinds := by
  cases blanks with
  | nil => exact hrest
  | cons c blanks =>
      have hc : isBlank c = true := (List.all_eq_true.mp hblanks) c List.mem_cons_self
      have hscan : scan c (blanks ++ rest) = .ok ⟨none, c :: blanks, rest⟩ := by
        rw [scan, if_pos hc, ← List.cons_append, run_append_of_stop hblanks hstop]
      exact Lexes.step hscan hrest

theorem scanComment_line (hbody : '\n' ∉ body) :
    scanComment ('/' :: body ++ '\n' :: rest) = .ok ⟨none, '/' :: '/' :: body ++ ['\n'], rest⟩ := by
  have hall : body.all (fun c => decide (c ≠ '\n')) = true := by
    rw [List.all_eq_true]
    intro c hc
    simpa using ne_of_mem_of_not_mem hc hbody
  have hstop : ∀ c ∈ ('\n' :: rest).head?, decide (c ≠ '\n') = false := by simp
  simp only [List.cons_append, scanComment, takeWhile_append_of_stop hall hstop,
    dropWhile_append_of_stop hall hstop]

theorem commentEnd_of_not_infix (hbody : ¬['*', '/'] <:+: body) :
    commentEnd (body ++ '*' :: '/' :: rest) = some (body ++ ['*', '/'], rest) := by
  induction body with
  | nil => simp [commentEnd]
  | cons c body ih =>
      have hrest : ¬['*', '/'] <:+: body :=
        fun h => hbody (h.trans (List.suffix_cons c body).isInfix)
      have hne : ¬(c = '*' ∧ (body ++ '*' :: '/' :: rest).head? = some '/') := by
        rintro ⟨rfl, hhead⟩
        cases body with
        | nil => simp at hhead
        | cons d body =>
            obtain rfl : d = '/' := by simpa using hhead
            exact hbody ⟨[], body, rfl⟩
      cases hcs : body ++ '*' :: '/' :: rest with
      | nil => simp at hcs
      | cons d tail =>
          rw [hcs] at ih hne
          rw [List.cons_append, hcs, commentEnd, if_neg (by simpa using hne), ih hrest]
          rfl

theorem scanComment_block (hbody : ¬['*', '/'] <:+: body) :
    scanComment ('*' :: body ++ '*' :: '/' :: rest) =
      .ok ⟨none, '/' :: '*' :: body ++ ['*', '/'], rest⟩ := by
  simp only [List.cons_append, scanComment, commentEnd_of_not_infix hbody]

/-- A slash starts a comment. -/
theorem scan_slash (cs : List Char) : scan '/' cs = scanComment cs := by
  rw [scan, if_neg (by decide), if_pos rfl]

/-- A gap before a text changes nothing. The blanks in front are read together with those of the
gap, so they have to be in the statement for the induction. -/
theorem Lexes.after_gap (hgap : Gap gap) (hstop : ∀ c ∈ rest.head?, isBlank c = false)
    (hrest : Lexes rest kinds) (blanks : List Char) (hblanks : blanks.all isBlank = true) :
    Lexes (blanks ++ (gap ++ rest)) kinds := by
  induction hgap generalizing blanks with
  | nil => exact Lexes.blanks hblanks hstop hrest
  | @blank c cs hc hcs ih =>
      have hmore : (blanks ++ [c]).all isBlank = true := by simp [hblanks, hc]
      simpa using ih _ hmore
  | @lineComment body cs hbody hcs ih =>
      refine Lexes.blanks hblanks (by simp [show isBlank '/' = false by decide]) ?_
      have hscan := (scan_slash _).trans (@scanComment_line (cs ++ rest) body hbody)
      simpa using Lexes.step hscan (ih [] rfl)
  | @blockComment body cs hbody hcs ih =>
      refine Lexes.blanks hblanks (by simp [show isBlank '/' = false by decide]) ?_
      have hscan := (scan_slash _).trans (@scanComment_block (cs ++ rest) body hbody)
      simpa using Lexes.step hscan (ih [] rfl)

/-! ## Tokens -/

theorem isDigit_iff_toNat : c.isDigit = true ↔ 0x30 ≤ c.toNat ∧ c.toNat ≤ 0x39 := by
  simp [Char.isDigit, UInt32.le_iff_toNat_le]

theorem isAlpha_iff_toNat : c.isAlpha = true ↔
    0x41 ≤ c.toNat ∧ c.toNat ≤ 0x5A ∨ 0x61 ≤ c.toNat ∧ c.toNat ≤ 0x7A := by
  have hupper : c.isUpper = decide (c.val ≥ 'A'.val ∧ c.val ≤ 'Z'.val) := rfl
  have hlower : c.isLower = (decide (c.val ≥ 'a'.val) && decide (c.val ≤ 'z'.val)) := rfl
  have halpha : c.isAlpha = (c.isUpper || c.isLower) := rfl
  simp [halpha, hupper, hlower, UInt32.le_iff_toNat_le]

theorem isBlank_eq_false_of_isAlphanum (hc : c.isAlphanum = true) : isBlank c = false := by
  rw [Char.isAlphanum, Bool.or_eq_true, isAlpha_iff_toNat, isDigit_iff_toNat] at hc
  simp only [isBlank, Bool.or_eq_false_iff, Bool.and_eq_false_iff, decide_eq_false_iff_not,
    beq_eq_false_iff_ne]
  omega

theorem isBlank_eq_false_of_isIdentStart (hc : isIdentStart c = true) : isBlank c = false := by
  rcases Bool.or_eq_true _ _ ▸ hc with halpha | hunderscore
  · exact isBlank_eq_false_of_isAlphanum (by simp [Char.isAlphanum, halpha])
  · rw [beq_iff_eq.mp hunderscore]
    decide

theorem isBlank_eq_false_of_isDigit (hc : c.isDigit = true) : isBlank c = false :=
  isBlank_eq_false_of_isAlphanum (by simp [Char.isAlphanum, hc])

theorem scan_ident (hc : isIdentStart c = true) (cs : List Char) :
    scan c cs = .ok (Piece.run isIdentPart (fun s => some (.ident s)) (c :: cs)) := by
  have hslash : c ≠ '/' := by rintro rfl; revert hc; decide
  have hquote : c ≠ '"' := by rintro rfl; revert hc; decide
  have hhyphen : ¬(c = '-' ∧ startsNumber cs = true) := by
    rintro ⟨rfl, _⟩
    revert hc
    decide
  have hdigit : ¬c.isDigit = true := by
    rcases Bool.or_eq_true _ _ ▸ hc with halpha | hunderscore
    · rw [isAlpha_iff_toNat] at halpha
      rw [isDigit_iff_toNat]
      omega
    · rw [beq_iff_eq.mp hunderscore]
      decide
  rw [scan, if_neg (by simp [isBlank_eq_false_of_isIdentStart hc]), if_neg hslash, if_neg hquote,
    if_neg hdigit, if_neg hhyphen, if_pos hc]

theorem scan_digit (hc : c.isDigit = true) (cs : List Char) :
    scan c cs = .ok (Piece.run isNumberPart (fun s => some (.number s)) (c :: cs)) := by
  have hslash : c ≠ '/' := by rintro rfl; revert hc; decide
  have hquote : c ≠ '"' := by rintro rfl; revert hc; decide
  rw [scan, if_neg (by simp [isBlank_eq_false_of_isDigit hc]), if_neg hslash, if_neg hquote,
    if_pos hc]

theorem scan_negative (hcs : startsNumber cs = true) :
    scan '-' cs =
      .ok ((Piece.run isNumberPart (fun s => some (.number ("-" ++ s))) cs).cons '-') := by
  rw [scan, if_neg (by decide), if_neg (by decide), if_neg (by decide), if_neg (by decide),
    if_pos ⟨rfl, hcs⟩]

theorem scan_punct (mark : Punct) (hcs : mark = .minus → startsNumber cs = false) :
    scan mark.toChar cs = .ok ⟨some (.punct mark), [mark.toChar], cs⟩ := by
  have hhyphen : ¬(mark.toChar = '-' ∧ startsNumber cs = true) := by
    rintro ⟨hmark, hnumber⟩
    have hminus : mark = .minus := by cases mark <;> first | rfl | simp [Punct.toChar] at hmark
    rw [hcs hminus] at hnumber
    cases hnumber
  have hother : isBlank mark.toChar = false ∧ mark.toChar ≠ '/' ∧ mark.toChar ≠ '"' ∧
      mark.toChar.isDigit = false ∧ isIdentStart mark.toChar = false ∧ mark.toChar ≠ '.' := by
    cases mark <;> decide
  obtain ⟨hblank, hslash, hquote, hdigit, hident, hdot⟩ := hother
  rw [scan, if_neg (by simp [hblank]), if_neg hslash, if_neg hquote, if_neg (by simp [hdigit]),
    if_neg hhyphen, if_neg (by simp [hident]), if_neg hdot, Punct.ofChar?_toChar]

theorem scan_quote (cs : List Char) : scan '"' cs = scanString cs := by
  rw [scan, if_neg (by decide), if_neg (by decide), if_pos rfl]

theorem scanString_append {value : String} (hvalue : isQuotable value = true) :
    scanString (value.toList ++ '"' :: rest) =
      .ok ⟨some (.text value), '"' :: value.toList ++ ['"'], rest⟩ := by
  have hstop : ∀ c ∈ ('"' :: rest).head?, (decide (c ≠ '"') && decide (c ≠ '\n')) = false := by simp
  simp only [scanString, takeWhile_append_of_stop hvalue hstop,
    dropWhile_append_of_stop hvalue hstop, String.ofList_toList]

theorem startsNumber_append (hcs : startsNumber cs = true) : startsNumber (cs ++ rest) = true := by
  cases cs with
  | nil => cases hcs
  | cons c cs => exact hcs

/-- A token at the front is read as a whole, unless what follows would be a part of it. -/
theorem scan_spelling (hkind : kind.isWritable = true)
    (hapart : ∀ c ∈ rest.head?, kind.extendedBy c = false) :
    ∃ c cs, kind.spelling = c :: cs ∧ isBlank c = false ∧
      scan c (cs ++ rest) = .ok ⟨some kind, kind.spelling, rest⟩ := by
  cases kind with
  | ident name =>
      simp only [TokenKind.isWritable, isIdentifier] at hkind
      split at hkind
      · cases hkind
      · next c cs hname =>
          rw [Bool.and_eq_true] at hkind
          obtain ⟨hc, hcs⟩ := hkind
          refine ⟨c, cs, hname, isBlank_eq_false_of_isIdentStart hc, ?_⟩
          have hall : (c :: cs).all isIdentPart = true := by
            simp [hcs, isIdentPart_of_isIdentStart hc]
          rw [scan_ident hc, ← List.cons_append, run_append_of_stop hall hapart, ← hname,
            String.ofList_toList]
          rfl
  | text value =>
      refine ⟨'"', value.toList ++ ['"'], rfl, by decide, ?_⟩
      rw [List.append_assoc, List.singleton_append, scan_quote, scanString_append hkind]
      rfl
  | number digits =>
      simp only [TokenKind.isWritable, isNumber] at hkind
      split at hkind
      · cases hkind
      · next cs hdigits =>
          rw [Bool.and_eq_true] at hkind
          refine ⟨'-', cs, hdigits, by decide, ?_⟩
          rw [scan_negative (startsNumber_append hkind.1), run_append_of_stop hkind.2 hapart]
          have hsigned : "-" ++ String.ofList cs = digits := by
            rw [← String.toList_inj]
            simp [hdigits]
          simp [Piece.cons, hsigned, TokenKind.spelling, hdigits]
      · next cs hempty _ =>
          rw [Bool.and_eq_true] at hkind
          cases hdigits : digits.toList with
          | nil => exact absurd hdigits hempty
          | cons c cs =>
              rw [hdigits] at hkind
              refine ⟨c, cs, hdigits, isBlank_eq_false_of_isDigit hkind.1, ?_⟩
              rw [scan_digit hkind.1, ← List.cons_append, run_append_of_stop hkind.2 hapart,
                ← hdigits, String.ofList_toList]
              rfl
  | punct mark =>
      refine ⟨mark.toChar, [], rfl, by cases mark <;> decide, ?_⟩
      apply scan_punct
      rintro rfl
      cases rest with
      | nil => rfl
      | cons c rest => exact hapart c rfl
  | ellipsis => exact ⟨'.', ['.', '.'], rfl, by decide, rfl⟩

/-- Reading a layout gives back its tokens. -/
theorem Layout.lexes (h : Layout kinds cs) : Lexes cs kinds := by
  induction h with
  | nil hgap => simpa using Lexes.after_gap hgap (by simp) Lexes.nil [] rfl
  | @cons kind kinds gap rest hgap hkind hrest hapart ih =>
      obtain ⟨c, cs, hspelling, hblank, hscan⟩ := scan_spelling hkind hapart
      rw [List.append_assoc, hspelling]
      exact Lexes.after_gap hgap (by simpa using hblank) (Lexes.step hscan ih) [] rfl

/-! ## Spaces -/

namespace TokenKind

/-- All tokens can be written. -/
def areWritable (kinds : List TokenKind) : Bool := kinds.all isWritable

@[simp] theorem areWritable_nil : areWritable [] = true := rfl

@[simp] theorem areWritable_cons :
    areWritable (kind :: kinds) = (kind.isWritable && areWritable kinds) := rfl

@[simp] theorem areWritable_append (before after : List TokenKind) :
    areWritable (before ++ after) = (areWritable before && areWritable after) :=
  List.all_append

theorem areWritable_flatMap {α : Type} {tokens : α → List TokenKind}
    (htokens : ∀ x, areWritable (tokens x) = true) (xs : List α) :
    areWritable (xs.flatMap tokens) = true := by
  induction xs with
  | nil => rfl
  | cons x xs ih => rw [List.flatMap_cons, areWritable_append, htokens, ih, Bool.true_and]

/-- The tokens with a space before each, and one at the end. -/
def spaced (kinds : List TokenKind) : List Char :=
  (kinds.flatMap fun kind => ' ' :: kind.spelling) ++ [' ']

end TokenKind

/-- Spaces are enough to keep tokens apart. -/
theorem Layout.of_spaced (hkinds : TokenKind.areWritable kinds = true) :
    Layout kinds (TokenKind.spaced kinds) := by
  have hspace : Gap [' '] := .blank (by decide) .nil
  induction kinds with
  | nil => exact .nil hspace
  | cons kind kinds ih =>
      rw [TokenKind.areWritable_cons, Bool.and_eq_true] at hkinds
      have hhead : (TokenKind.spaced kinds).head? = some ' ' := by cases kinds <;> rfl
      have hapart : ∀ c ∈ (TokenKind.spaced kinds).head?, kind.extendedBy c = false := by
        intro c hc
        rw [hhead] at hc
        obtain rfl := Option.mem_some.mp hc
        cases kind with
        | punct mark => cases mark <;> decide
        | _ => rfl
      simpa [TokenKind.spaced] using Layout.cons hspace hkinds.1 (ih hkinds.2) hapart

/-- **Layouts.** A layout has exactly its tokens. -/
theorem TokenStream.ofText_of_layout (h : Layout kinds cs) :
    ∃ s, TokenStream.ofText (String.ofList cs) = .ok s ∧ s.kinds = kinds := by
  obtain ⟨s, hlex, hkinds⟩ := h.lexes cs.length .start (Nat.le_refl _)
  exact ⟨s, by simpa [ofText] using hlex, hkinds⟩

end IdlBindings
