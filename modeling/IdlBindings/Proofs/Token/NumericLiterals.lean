import IdlBindings.Proofs.Token.Decomposition
import Mathlib.Computability.RegularExpressions

/-!
# Numeric literals

The grammar of the language gives numeric literals by two regular expressions. A number is read by a
simpler rule: a digit, after a hyphen if there is one, and then the longest run over letters, digits
and points. The rule finds the end of a literal as long as nothing else stands in it, which leaves
out two forms: a literal whose first digit comes after the point, and one whose exponent has a sign.

## Main definitions

* `integerPattern`, `decimalPattern`: integer and decimal literals without their sign
* `IsNumericLiteral`: the literals of the grammar
* `magnitude`: a literal without its sign
-/
namespace IdlBindings

/-! ## Words of a pattern -/

/-- A regular expression over characters. -/
abbrev Pattern := RegularExpression Char

namespace Pattern

def oneOf (cs : String) : Pattern := cs.toList.foldr (fun c p => .char c + p) 0

def maybe (p : Pattern) : Pattern := p + 1

def oneOrMore (p : Pattern) : Pattern := p * p.star

/-- The characters that a pattern names. -/
def letters : Pattern → List Char
  | .zero => []
  | .epsilon => []
  | .char c => [c]
  | .plus p q => letters p ++ letters q
  | .comp p q => letters p ++ letters q
  | .star p => letters p

/-- The characters that a word of the pattern can start with. -/
def firstLetters : Pattern → List Char
  | .zero => []
  | .epsilon => []
  | .char c => [c]
  | .plus p q => firstLetters p ++ firstLetters q
  | .comp p q => if p.matchEpsilon then firstLetters p ++ firstLetters q else firstLetters p
  | .star p => firstLetters p

variable {p : Pattern} {c : Char} {w : List Char}

theorem mem_letters (hw : w ∈ p.matches') (hc : c ∈ w) : c ∈ letters p := by
  induction p generalizing w with
  | zero => cases hw
  | epsilon =>
      obtain rfl : w = [] := hw
      cases hc
  | char d =>
      obtain rfl : w = [d] := hw
      exact hc
  | plus p q ihp ihq =>
      rcases hw with hw | hw
      · exact List.mem_append_left _ (ihp hw hc)
      · exact List.mem_append_right _ (ihq hw hc)
  | comp p q ihp ihq =>
      obtain ⟨u, hu, v, hv, rfl⟩ := Language.mem_mul.mp hw
      rcases List.mem_append.mp hc with hc | hc
      · exact List.mem_append_left _ (ihp hu hc)
      · exact List.mem_append_right _ (ihq hv hc)
  | star p ih =>
      obtain ⟨words, rfl, hwords⟩ := Language.mem_kstar.mp hw
      obtain ⟨word, hword, hc⟩ := List.mem_flatten.mp hc
      exact ih (hwords word hword) hc

theorem matchEpsilon_of_nil_mem (h : [] ∈ p.matches') : p.matchEpsilon = true :=
  (RegularExpression.rmatch_iff_matches' p []).mpr h

theorem mem_firstLetters (hw : c :: w ∈ p.matches') : c ∈ firstLetters p := by
  induction p generalizing w with
  | zero => cases hw
  | epsilon => cases (show c :: w = [] from hw)
  | char d =>
      obtain ⟨rfl, _⟩ := List.cons.inj (show c :: w = [d] from hw)
      exact List.mem_singleton_self c
  | plus p q ihp ihq =>
      rcases hw with hw | hw
      · exact List.mem_append_left _ (ihp hw)
      · exact List.mem_append_right _ (ihq hw)
  | comp p q ihp ihq =>
      obtain ⟨u, hu, v, hv, huv⟩ := Language.mem_mul.mp hw
      rw [firstLetters]
      cases u with
      | nil =>
          obtain rfl : v = c :: w := huv
          rw [if_pos (matchEpsilon_of_nil_mem hu)]
          exact List.mem_append_right _ (ihq hv)
      | cons d u =>
          obtain ⟨rfl, _⟩ := List.cons.inj huv
          split
          · exact List.mem_append_left _ (ihp hu)
          · exact ihp hu
  | star p ih =>
      -- Empty words of the repetition can be left out, so the first of the others starts with `c`.
      obtain ⟨words, hwords, hnonempty⟩ := Language.mem_kstar_iff_exists_nonempty.mp hw
      cases words with
      | nil => cases hwords
      | cons word words =>
          obtain ⟨hword, hne⟩ := hnonempty word List.mem_cons_self
          cases word with
          | nil => exact absurd rfl hne
          | cons d word =>
              obtain ⟨rfl, _⟩ := List.cons.inj hwords
              exact ih hword

end Pattern

/-! ## The literals of the grammar -/

open Pattern

def digitPattern : Pattern := oneOf "0123456789"

/-- A decimal, hexadecimal or octal integer. -/
def integerPattern : Pattern :=
  oneOf "123456789" * digitPattern.star +
    .char '0' * oneOf "Xx" * oneOrMore (oneOf "0123456789ABCDEFabcdef") +
    .char '0' * (oneOf "01234567").star

def exponentPattern : Pattern := oneOf "Ee" * maybe (oneOf "+-") * oneOrMore digitPattern

/-- A number with a point, which may have an exponent, or one without a point, which has. -/
def decimalPattern : Pattern :=
  (oneOrMore digitPattern * .char '.' * digitPattern.star +
    digitPattern.star * .char '.' * oneOrMore digitPattern) * maybe exponentPattern +
    oneOrMore digitPattern * exponentPattern

/-- An integer or decimal literal, with or without a hyphen before it. -/
def numericPattern : Pattern := maybe (.char '-') * (integerPattern + decimalPattern)

def IsNumericLiteral (w : String) : Prop := w.toList ∈ numericPattern.matches'

instance : DecidablePred IsNumericLiteral := fun w =>
  inferInstanceAs (Decidable (w.toList ∈ numericPattern.matches'))

/-- The characters of a literal after its sign. -/
def magnitude (w : String) : List Char :=
  match w.toList with
  | '-' :: cs => cs
  | cs => cs

variable {w : String} {c : Char}

/-- A literal starts with a digit or a point. -/
theorem isDigit_or_eq_of_magnitude {cs : List Char}
    (h : c :: cs ∈ (integerPattern + decimalPattern).matches') : c.isDigit = true ∨ c = '.' := by
  have hletters : (firstLetters (integerPattern + decimalPattern)).all
      (fun c => c.isDigit || c == '.') = true := by
    decide
  simpa using List.all_eq_true.mp hletters c (mem_firstLetters h)

theorem IsNumericLiteral.magnitude_mem (h : IsNumericLiteral w) :
    magnitude w ∈ (integerPattern + decimalPattern).matches' := by
  obtain ⟨sign, hsign, v, hv, hw⟩ := Language.mem_mul.mp h
  rw [magnitude, ← hw]
  rcases hsign with hsign | hsign
  · obtain rfl : sign = ['-'] := hsign
    exact hv
  · obtain rfl : sign = [] := hsign
    -- Without a sign the literal does not start with a hyphen, so nothing is taken off.
    split
    · next cs hcs =>
        have hfirst := isDigit_or_eq_of_magnitude (show '-' :: cs ∈ _ from hcs ▸ hv)
        exact absurd hfirst (by decide)
    · exact hv

theorem IsNumericLiteral.exists_magnitude_eq (h : IsNumericLiteral w) :
    ∃ c cs, magnitude w = c :: cs ∧ (c.isDigit = true ∨ c = '.') := by
  have hmem := h.magnitude_mem
  cases hcs : magnitude w with
  | nil =>
      rw [hcs] at hmem
      exact absurd (matchEpsilon_of_nil_mem hmem) (by decide)
  | cons c cs =>
      rw [hcs] at hmem
      exact ⟨c, cs, rfl, isDigit_or_eq_of_magnitude hmem⟩

/-- Apart from signs, a literal has only characters that a number runs over. -/
theorem IsNumericLiteral.isNumberPart_or_sign (h : IsNumericLiteral w) (hc : c ∈ magnitude w) :
    isNumberPart c = true ∨ c = '+' ∨ c = '-' := by
  have hletters : (letters (integerPattern + decimalPattern)).all
      (fun c => isNumberPart c || c == '+' || c == '-') = true := by
    decide
  simpa [or_assoc] using List.all_eq_true.mp hletters c (mem_letters h.magnitude_mem hc)

/-! ## Reading a literal -/

theorem isNumber_eq (w : String) :
    isNumber w = (startsNumber (magnitude w) && (magnitude w).all isNumberPart) := by
  unfold isNumber magnitude
  generalize w.toList = cs
  split
  · rfl
  · rfl
  · next _ hminus =>
      split
      · exact absurd rfl (hminus _)
      · rfl

/-- The whole text is one number exactly if it has the form that numbers are read by. -/
theorem ofText_eq_number_iff :
    TokenStream.ofText w = .ok ⟨[⟨.number w, .start⟩], .behind w.toList⟩ ↔ isNumber w = true := by
  constructor
  · intro h
    obtain ⟨_, rest, _, hcut⟩ := exists_cut_of_ofText h
    simpa [TokenKind.isWritable] using hcut.areWritable
  · intro h
    obtain ⟨c, cs, hspelling, _, hscan⟩ := @scan_spelling [] (.number w) h (by simp)
    have hw : w.toList = c :: cs := hspelling
    rw [List.append_nil] at hscan
    simp only [TokenStream.ofText, hw, List.length_cons, lexFrom_succ_cons, hscan, lexFrom_nil,
      hspelling, Position.after_start]

/-- **Which literals are read as one number.** A literal of the grammar is read as a single number
exactly if a digit comes first, apart from its sign, and its exponent has no sign. -/
theorem literal_is_one_number_iff (h : IsNumericLiteral w) :
    TokenStream.ofText w = .ok ⟨[⟨.number w, .start⟩], .behind w.toList⟩ ↔
      (magnitude w).head? ≠ some '.' ∧ '+' ∉ magnitude w ∧ '-' ∉ magnitude w := by
  obtain ⟨c, cs, hcs, hfirst⟩ := h.exists_magnitude_eq
  rw [ofText_eq_number_iff, isNumber_eq, Bool.and_eq_true, List.all_eq_true]
  constructor
  · rintro ⟨hstart, hall⟩
    refine ⟨?_, fun hplus => ?_, fun hminus => ?_⟩
    · rw [hcs] at hstart ⊢
      intro hdot
      obtain rfl : c = '.' := Option.some.inj hdot
      cases hstart
    · exact absurd (hall '+' hplus) (by decide)
    · exact absurd (hall '-' hminus) (by decide)
  · rintro ⟨hdot, hplus, hminus⟩
    refine ⟨?_, fun d hd => ?_⟩
    · rw [hcs] at hdot ⊢
      exact hfirst.resolve_right fun hc => hdot (by rw [hc]; rfl)
    · refine (h.isNumberPart_or_sign hd).resolve_right ?_
      rintro (rfl | rfl)
      · exact hplus hd
      · exact hminus hd

theorem literal_is_one_number_hexadecimal :
    IsNumericLiteral "-0x1E" ∧
      TokenStream.ofText "-0x1E" = .ok ⟨[⟨.number "-0x1E", .start⟩], ⟨5, 1, 6⟩⟩ := by
  have h : IsNumericLiteral "-0x1E" := by decide
  exact ⟨h, (literal_is_one_number_iff h).mpr (by decide)⟩

/-- A signed exponent is cut off, with an error if the sign is a plus, and a literal that starts
with its point is taken for an ellipsis. -/
theorem literals_not_one_number :
    IsNumericLiteral "1e-5" ∧
      TokenStream.ofText "1e-5" =
        .ok ⟨[⟨.number "1e", .start⟩, ⟨.number "-5", ⟨2, 1, 3⟩⟩], ⟨4, 1, 5⟩⟩ ∧
    IsNumericLiteral "1.5E+3" ∧
      TokenStream.ofText "1.5E+3" = .error ⟨.unexpected '+', ⟨4, 1, 5⟩⟩ ∧
    IsNumericLiteral "-.5" ∧ TokenStream.ofText "-.5" = .error ⟨.strayDot, ⟨1, 1, 2⟩⟩ := by
  refine ⟨by decide, ?_, by decide, ?_, by decide, ?_⟩
  · decide
  · decide
  · decide

end IdlBindings
