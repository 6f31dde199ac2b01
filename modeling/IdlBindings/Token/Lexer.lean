import IdlBindings.Text.CharClass
import IdlBindings.Token

/-!
# From characters to tokens

The text is cut into pieces. A piece is a run of blanks, a comment, or a token; `scan` finds the
piece at the front of the remaining characters and says nothing about positions. Positions follow
from the pieces: each starts where the characters before it end.

## Main definitions

* `LexFault`: why the characters at the front are no piece
* `scan`: the piece at the front
* `TokenStream.ofText`: all tokens of a text, or the first fault and where its piece starts

## Main results

* `text_append_rest_of_scan`: a piece and what follows it are the characters scanned, so nothing is
  lost
* `length_rest_lt_of_scan`: a piece is never empty, which bounds the number of pieces
-/
namespace IdlBindings

/-- Why no piece starts at a character. -/
inductive LexFault where
  /-- A block comment without its closing mark. -/
  | openComment
  /-- A string that meets the end of its line or of the text. -/
  | openString
  /-- A dot that is not the first of three. -/
  | strayDot
  /-- A character that starts no token. -/
  | unexpected (c : Char)
deriving DecidableEq, Repr

def LexFault.message : LexFault → String
  | openComment => "unterminated block comment"
  | openString => "unterminated string literal"
  | strayDot => "expected '...'"
  | unexpected c => "unexpected character '" ++ c.toString ++ "'"

/-- A fault and the start of the piece it was met in. -/
structure LexError where
  fault : LexFault
  position : Position
deriving DecidableEq, Repr

/-- A piece of the text: the token it is, or none for blanks and comments; its characters; and the
characters after it. -/
structure Piece where
  kind : Option TokenKind
  text : List Char
  rest : List Char
deriving Repr

namespace Piece

/-- The longest run at the front whose characters are all in the class `p`. -/
def run (p : Char → Bool) (kind : String → Option TokenKind) (cs : List Char) : Piece :=
  ⟨kind (String.ofList (cs.takeWhile p)), cs.takeWhile p, cs.dropWhile p⟩

/-- The piece with `c` written before it. -/
def cons (c : Char) (s : Piece) : Piece := { s with text := c :: s.text }

end Piece

/-- The remainder of a block comment up to and including its closing mark. The opening mark is
already taken, so its star does not close the comment. -/
def commentEnd : List Char → Option (List Char × List Char)
  | [] => none
  | [_] => none
  | c :: d :: rest =>
    if c = '*' ∧ d = '/' then some ([c, d], rest)
    else (commentEnd (d :: rest)).map fun (text, rest) => (c :: text, rest)

/-- What follows a slash. A line comment takes its line feed with it. -/
def scanComment : List Char → Except LexFault Piece
  | '/' :: cs =>
    match cs.dropWhile (· ≠ '\n') with
    | [] => .ok ⟨none, '/' :: '/' :: cs.takeWhile (· ≠ '\n'), []⟩
    | c :: rest => .ok ⟨none, '/' :: '/' :: cs.takeWhile (· ≠ '\n') ++ [c], rest⟩
  | '*' :: cs =>
    match commentEnd cs with
    | some (text, rest) => .ok ⟨none, '/' :: '*' :: text, rest⟩
    | none => .error .openComment
  | _ => .error (.unexpected '/')

/-- What follows an opening quote: everything up to the next quote on the same line. -/
def scanString (cs : List Char) : Except LexFault Piece :=
  let value := cs.takeWhile fun c => c ≠ '"' && c ≠ '\n'
  match cs.dropWhile fun c => c ≠ '"' && c ≠ '\n' with
  | '"' :: rest => .ok ⟨some (.text (String.ofList value)), '"' :: value ++ ['"'], rest⟩
  | _ => .error .openString

/-- What follows a dot. -/
def scanEllipsis : List Char → Except LexFault Piece
  | '.' :: '.' :: rest => .ok ⟨some .ellipsis, ['.', '.', '.'], rest⟩
  | _ => .error .strayDot

/-- Whether a hyphen with these characters after it is the sign of a number. -/
def startsNumber : List Char → Bool
  | [] => false
  | c :: _ => c.isDigit

/-- The piece that starts with `c`, where `cs` follows. -/
def scan (c : Char) (cs : List Char) : Except LexFault Piece :=
  if isBlank c then .ok (Piece.run isBlank (fun _ => none) (c :: cs))
  else if c = '/' then scanComment cs
  else if c = '"' then scanString cs
  else if c.isDigit then .ok (Piece.run isNumberPart (fun s => some (.number s)) (c :: cs))
  else if c = '-' ∧ startsNumber cs then
    .ok ((Piece.run isNumberPart (fun s => some (.number ("-" ++ s))) cs).cons c)
  else if isIdentStart c then .ok (Piece.run isIdentPart (fun s => some (.ident s)) (c :: cs))
  else if c = '.' then scanEllipsis cs
  else
    match Punct.ofChar? c with
    | some mark => .ok ⟨some (.punct mark), [c], cs⟩
    | none => .error (.unexpected c)

/-! ## Nothing is lost -/

@[simp] theorem Piece.text_append_rest_run (p : Char → Bool) (kind : String → Option TokenKind)
    (cs : List Char) : (Piece.run p kind cs).text ++ (Piece.run p kind cs).rest = cs :=
  List.takeWhile_append_dropWhile

theorem commentEnd_append {cs text rest : List Char} (h : commentEnd cs = some (text, rest)) :
    text ++ rest = cs := by
  fun_induction commentEnd cs generalizing text rest with
  | case1 => simp at h
  | case2 => simp at h
  | case3 c d tail hc =>
    simp only [Option.some.injEq, Prod.mk.injEq] at h
    obtain ⟨rfl, rfl⟩ := h
    rfl
  | case4 c d tail hc ih =>
    obtain ⟨⟨t, r⟩, ht, heq⟩ := Option.map_eq_some_iff.1 h
    simp only [Prod.mk.injEq] at heq
    obtain ⟨rfl, rfl⟩ := heq
    simp [ih ht]

theorem text_append_rest_of_scanComment {cs : List Char} {s : Piece}
    (h : scanComment cs = .ok s) : s.text ++ s.rest = '/' :: cs := by
  unfold scanComment at h
  split at h
  · next cs =>
    have whole := List.takeWhile_append_dropWhile (p := fun c => decide (c ≠ '\n')) (l := cs)
    split at h
    · next hd =>
      cases h
      rw [hd] at whole
      simpa using whole
    · next c rest hd =>
      cases h
      rw [hd] at whole
      simpa using whole
  · next cs =>
    split at h
    · next text rest hc =>
      cases h
      simp [commentEnd_append hc]
    · cases h
  · cases h

theorem text_append_rest_of_scanString {cs : List Char} {s : Piece}
    (h : scanString cs = .ok s) : s.text ++ s.rest = '"' :: cs := by
  have whole := List.takeWhile_append_dropWhile (p := fun c => c ≠ '"' && c ≠ '\n') (l := cs)
  unfold scanString at h
  split at h
  · next rest hd =>
    cases h
    rw [hd] at whole
    simpa using whole
  · cases h

theorem text_append_rest_of_scanEllipsis {cs : List Char} {s : Piece}
    (h : scanEllipsis cs = .ok s) : s.text ++ s.rest = '.' :: cs := by
  unfold scanEllipsis at h
  split at h <;> cases h
  rfl

/-- **Lossless.** A piece and the characters after it are the characters that were scanned. -/
theorem text_append_rest_of_scan {c : Char} {cs : List Char} {s : Piece}
    (h : scan c cs = .ok s) : s.text ++ s.rest = c :: cs := by
  unfold scan at h
  repeat' split at h
  case isTrue => cases h; simp
  case isTrue hc => subst hc; exact text_append_rest_of_scanComment h
  case isTrue hc => subst hc; exact text_append_rest_of_scanString h
  case isTrue => cases h; simp
  case isTrue => cases h; simp [Piece.cons, Piece.run]
  case isTrue => cases h; simp
  case isTrue hc => subst hc; exact text_append_rest_of_scanEllipsis h
  case h_1 => cases h; rfl
  case h_2 => cases h

/-! ## Every piece has a character -/

theorem Piece.text_run_ne_nil {p : Char → Bool} {c : Char} (hc : p c)
    (kind : String → Option TokenKind) (cs : List Char) :
    (Piece.run p kind (c :: cs)).text ≠ [] := by
  simp [Piece.run, hc]

theorem isNumberPart_of_isDigit {c : Char} (h : c.isDigit) : isNumberPart c := by
  simp [isNumberPart, Char.isAlphanum, h]

theorem text_ne_nil_of_scanComment {cs : List Char} {s : Piece} (h : scanComment cs = .ok s) :
    s.text ≠ [] := by
  unfold scanComment at h
  repeat' split at h
  all_goals cases h
  all_goals simp

theorem text_ne_nil_of_scan {c : Char} {cs : List Char} {s : Piece} (h : scan c cs = .ok s) :
    s.text ≠ [] := by
  unfold scan at h
  repeat' split at h
  case isTrue hc => cases h; exact Piece.text_run_ne_nil hc _ _
  case isTrue => exact text_ne_nil_of_scanComment h
  case isTrue =>
    unfold scanString at h
    split at h <;> cases h
    simp
  case isTrue hc => cases h; exact Piece.text_run_ne_nil (isNumberPart_of_isDigit hc) _ _
  case isTrue => cases h; simp [Piece.cons]
  case isTrue hc =>
    cases h
    exact Piece.text_run_ne_nil (isIdentPart_of_isIdentStart hc) _ _
  case isTrue =>
    unfold scanEllipsis at h
    split at h <;> cases h
    simp
  case h_1 => cases h; simp
  case h_2 => cases h

/-- A piece takes at least one character. -/
theorem length_rest_lt_of_scan {c : Char} {cs : List Char} {s : Piece} (h : scan c cs = .ok s) :
    s.rest.length < (c :: cs).length := by
  have whole := congrArg List.length (text_append_rest_of_scan h)
  have := List.length_pos_iff.2 (text_ne_nil_of_scan h)
  rw [List.length_append] at whole
  omega

/-! ## All tokens of a text -/

/-- The tokens of `cs`, which start at `p`. The number bounds the pieces still to come; every piece
has a character of its own, so the length of `cs` is always enough. -/
def lexFrom : Nat → Position → List Char → Except LexError TokenStream
  | _, p, [] => .ok ⟨[], p⟩
  | 0, p, _ :: _ => .ok ⟨[], p⟩
  | n + 1, p, c :: cs =>
    match scan c cs with
    | .error fault => .error ⟨fault, p⟩
    | .ok piece =>
      match lexFrom n (p.after piece.text) piece.rest with
      | .error e => .error e
      | .ok stream =>
        match piece.kind with
        | none => .ok stream
        | some kind => .ok { stream with tokens := ⟨kind, p⟩ :: stream.tokens }

/-- The tokens of a text, or the first fault in it. -/
def TokenStream.ofText (source : String) : Except LexError TokenStream :=
  let cs := source.toList
  lexFrom cs.length .start cs

end IdlBindings
