import IdlBindings.Json.Reader
import IdlBindings.Text.CString
import Mathlib.Logic.Function.Defs
import Mathlib.Tactic.SplitIfs

/-!
# Literals are closed

Text from a document stands in generated code as a literal. Whoever looks for the end of a literal
skips the character behind each backslash and stops at the first quote that is left. For a quoted
text this is its last character, whatever code follows, so no text can get out of its literal. No
two texts are quoted alike: each character is written as itself, as a letter behind a backslash or
as two digits behind `\x`, and the first character can be told from the rest.

## Main definitions

* `Spelling`: the three ways to write a character inside a literal
* `literalLength?`: where a literal ends
* `takeQuoted?`: the first character of a quoted text and what is left
-/
namespace IdlBindings

open Json (hexValue?)

/-! ## Spellings -/

/-- The characters that are written as a letter behind a backslash, with that letter. -/
def letterEscapes : List (Char × Char) :=
  [('"', '"'), ('\\', '\\'), ('\n', 'n'), ('\r', 'r'), ('\t', 't')]

/-- The control characters that are written by their number. -/
def isNumbered (c : Char) : Bool := c.toNat < 0x20 && c != '\n' && c != '\r' && c != '\t'

/-- How a character is written inside a literal. -/
inductive Spelling : Char → List Char → Prop
  | plain {c : Char} (hquote : c ≠ '"') (hbackslash : c ≠ '\\') (hcontrol : 0x20 ≤ c.toNat) :
      Spelling c [c]
  | letter {c e : Char} (h : (c, e) ∈ letterEscapes) : Spelling c ['\\', e]
  | number {c : Char} (h : isNumbered c = true) :
      Spelling c ['\\', 'x', hexDigit (c.toNat / 16), hexDigit c.toNat]

theorem spelling_cStringChar (c : Char) : Spelling c (cStringChar c) := by
  unfold cStringChar
  split_ifs with hquote hbackslash hfeed hreturn htab hcontrol
  · subst hquote
    exact .letter (by decide)
  · subst hbackslash
    exact .letter (by decide)
  · subst hfeed
    exact .letter (by decide)
  · subst hreturn
    exact .letter (by decide)
  · subst htab
    exact .letter (by decide)
  · exact .number (by simp [isNumbered, hcontrol, hfeed, hreturn, htab])
  · exact .plain hquote hbackslash (by omega)

theorem lt_of_isNumbered {c : Char} (h : isNumbered c = true) : c.toNat < 0x20 := by
  simp only [isNumbered, Bool.and_eq_true, decide_eq_true_eq] at h
  exact h.1.1.1

theorem hexValue?_hexDigit (n : Nat) : hexValue? (hexDigit n) = some (n % 16) := by
  have hall : ∀ d : Fin 16, hexValue? (Nat.digitChar d) = some d.val := by decide
  exact hall ⟨n % 16, Nat.mod_lt _ (by decide)⟩

/-- A digit is no character that has no value. -/
theorem hexDigit_ne {c : Char} (h : hexValue? c = none) (n : Nat) : hexDigit n ≠ c := by
  intro heq
  rw [← heq, hexValue?_hexDigit] at h
  cases h

/-! ## The end of a literal -/

/-- The number of characters up to the first quote that no backslash takes, that quote included. -/
def quotedLength? : List Char → Option Nat
  | [] => none
  | '\\' :: _ :: cs => (quotedLength? cs).map (· + 2)
  | c :: cs => if c = '"' then some 1 else (quotedLength? cs).map (· + 1)

/-- The length of the literal that code starts with. -/
def literalLength? : List Char → Option Nat
  | '"' :: cs => (quotedLength? cs).map (· + 1)
  | _ => none

theorem quotedLength?_cons {c : Char} (hquote : c ≠ '"') (hbackslash : c ≠ '\\')
    (cs : List Char) : quotedLength? (c :: cs) = (quotedLength? cs).map (· + 1) := by
  rw [quotedLength?, if_neg hquote]
  intro _ _ heq
  exact absurd heq hbackslash

/-- What stands for a character is skipped as a whole. -/
theorem quotedLength?_spelling {c : Char} {cs : List Char} (h : Spelling c cs) (rest : List Char) :
    quotedLength? (cs ++ rest) = (quotedLength? rest).map (· + cs.length) := by
  cases h with
  | plain hquote hbackslash _ => exact quotedLength?_cons hquote hbackslash rest
  | letter _ => rfl
  | number _ =>
      have hdigit : ∀ n, hexDigit n ≠ '"' ∧ hexDigit n ≠ '\\' :=
        fun n => ⟨hexDigit_ne rfl n, hexDigit_ne rfl n⟩
      simp only [List.cons_append, List.nil_append, quotedLength?,
        quotedLength?_cons (hdigit _).1 (hdigit _).2, Option.map_map]
      rfl

theorem quotedLength?_flatMap (cs rest : List Char) :
    quotedLength? (cs.flatMap cStringChar ++ '"' :: rest) =
      some ((cs.flatMap cStringChar).length + 1) := by
  induction cs with
  | nil => rfl
  | cons c cs ih =>
      rw [List.flatMap_cons, List.append_assoc, quotedLength?_spelling (spelling_cStringChar c), ih,
        Option.map_some, List.length_append]
      congr 1
      omega

theorem toList_cString (t : String) :
    (cString t).toList = '"' :: (t.toList.flatMap cStringChar ++ ['"']) := by
  rw [cString, String.toList_ofList, List.cons_append]

/-- A control character is never written as such. -/
theorem le_toNat_of_spelling {c d : Char} {cs : List Char} (h : Spelling c cs) (hd : d ∈ cs) :
    0x20 ≤ d.toNat := by
  cases h with
  | plain _ _ hcontrol => rwa [List.mem_singleton.mp hd]
  | letter h =>
      have hall : letterEscapes.all (fun p => 0x20 ≤ p.2.toNat) = true := rfl
      have hletter := List.all_eq_true.mp hall _ h
      simp only [List.mem_cons, List.not_mem_nil, or_false] at hd
      rcases hd with rfl | rfl
      · decide
      · simpa using hletter
  | number _ =>
      have hall : ∀ d : Fin 16, 0x20 ≤ (Nat.digitChar d).toNat := by decide
      have hdigit : ∀ n, 0x20 ≤ (hexDigit n).toNat := fun n =>
        hall ⟨n % 16, Nat.mod_lt _ (by decide)⟩
      simp only [List.mem_cons, List.not_mem_nil, or_false] at hd
      rcases hd with rfl | rfl | rfl | rfl
      · decide
      · decide
      · exact hdigit _
      · exact hdigit _

/-! ## Reading back -/

/-- The first character of a quoted text and what is left. Two digits stand behind `\x`. -/
def takeQuoted? : List Char → Option (Char × List Char)
  | [] => none
  | '\\' :: 'x' :: a :: b :: cs => do
    return (Char.ofNat (16 * (← hexValue? a) + (← hexValue? b)), cs)
  | '\\' :: e :: cs => (letterEscapes.find? fun p => p.2 == e).map fun p => (p.1, cs)
  | c :: cs => some (c, cs)

theorem takeQuoted?_cons {c : Char} (h : c ≠ '\\') (cs : List Char) :
    takeQuoted? (c :: cs) = some (c, cs) := by
  rw [takeQuoted?]
  · intro _ _ _ heq
    exact absurd heq h
  · intro _ _ heq
    exact absurd heq h

/-- A spelling can be told from what follows it. -/
theorem takeQuoted?_spelling {c : Char} {cs : List Char} (h : Spelling c cs) (rest : List Char) :
    takeQuoted? (cs ++ rest) = some (c, rest) := by
  cases h with
  | plain _ hbackslash _ => exact takeQuoted?_cons hbackslash rest
  | letter h =>
      simp only [letterEscapes, List.mem_cons, Prod.mk.injEq, List.not_mem_nil, or_false] at h
      rcases h with ⟨rfl, rfl⟩ | ⟨rfl, rfl⟩ | ⟨rfl, rfl⟩ | ⟨rfl, rfl⟩ | ⟨rfl, rfl⟩ <;> rfl
  | number h =>
      have hlt := lt_of_isNumbered h
      have hvalue : 16 * (c.toNat / 16 % 16) + c.toNat % 16 = c.toNat := by omega
      simp only [List.cons_append, List.nil_append, takeQuoted?, hexValue?_hexDigit]
      simp [hvalue, Char.ofNat_toNat]

theorem flatMap_cStringChar_injective {cs ds : List Char}
    (h : cs.flatMap cStringChar = ds.flatMap cStringChar) : cs = ds := by
  induction cs generalizing ds with
  | nil =>
      cases ds with
      | nil => rfl
      | cons d ds =>
          have htake := congrArg takeQuoted? h
          rw [List.flatMap_cons, takeQuoted?_spelling (spelling_cStringChar d)] at htake
          cases htake
  | cons c cs ih =>
      have htake := congrArg takeQuoted? h
      rw [List.flatMap_cons, takeQuoted?_spelling (spelling_cStringChar c)] at htake
      cases ds with
      | nil => cases htake
      | cons d ds =>
          rw [List.flatMap_cons, takeQuoted?_spelling (spelling_cStringChar d), Option.some.injEq,
            Prod.mk.injEq] at htake
          rw [htake.1, ih htake.2]

theorem cString_injective : Function.Injective cString := by
  intro s t h
  have hlist := congrArg String.toList h
  rw [toList_cString, toList_cString, List.cons.injEq, List.append_left_inj] at hlist
  exact String.toList_inj.mp (flatMap_cStringChar_injective hlist.2)

/-! ## Quoted texts -/

/-- **Quoted text stays in its literal.** It starts with a quote and holds no control character. The
literal ends with its last character, whatever code follows, and no other text is quoted alike. -/
theorem quoted_text_closed :
    (∀ t : String, (cString t).toList.head? = some '"' ∧
      (∀ c ∈ (cString t).toList, 0x20 ≤ c.toNat) ∧
      ∀ code, literalLength? ((cString t).toList ++ code) = some (cString t).length) ∧
    Function.Injective cString := by
  refine ⟨fun t => ⟨?_, ?_, ?_⟩, cString_injective⟩
  · rw [toList_cString]
    rfl
  · intro c hc
    rw [toList_cString] at hc
    simp only [List.mem_cons, List.mem_append, List.mem_flatMap, List.not_mem_nil, or_false] at hc
    rcases hc with rfl | ⟨d, _, hd⟩ | rfl
    · decide
    · exact le_toNat_of_spelling (spelling_cStringChar d) hd
    · decide
  · intro code
    rw [← String.length_toList, toList_cString, List.cons_append, List.append_assoc,
      List.singleton_append, literalLength?, quotedLength?_flatMap]
    simp

/-- A text that ends in a quote, a backslash and a control character. -/
theorem quoted_text_closed_at_code :
    cString "\"\\\x01" = "\"\\\"\\\\\\x01\"" ∧
      '\\' ∈ (cString "\"\\\x01").toList ∧ 0x20 ≤ '\\'.toNat ∧
      literalLength? ((cString "\"\\\x01").toList ++ [';', '"']) = some 10 := by
  have hspelled : cString "\"\\\x01" = "\"\\\"\\\\\\x01\"" := by decide
  have hmem : '\\' ∈ (cString "\"\\\x01").toList := by
    rw [hspelled]
    decide
  obtain ⟨_, hcontrol, hend⟩ := quoted_text_closed.1 "\"\\\x01"
  refine ⟨hspelled, hmem, hcontrol _ hmem, (hend _).trans ?_⟩
  rw [hspelled]
  decide

end IdlBindings
