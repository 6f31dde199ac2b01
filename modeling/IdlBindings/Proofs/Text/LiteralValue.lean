import IdlBindings.Proofs.Text.Quoting
import Mathlib.Data.List.Chain
import Mathlib.Data.List.Infix

/-!
# What a literal stands for

A compiler turns a literal into bytes. A letter behind a backslash stands for one character, and
`\x` takes all hexadecimal digits that follow, not only two. So a quoted text is what its literal
stands for exactly if no such digit follows a control character that is written by its number. Where
one does, the digits of the text are taken for digits of the number, and bytes are lost.

## Main definitions

* `literalBytes?`: the bytes that a literal stands for
* `utf8Bytes`: the bytes of a text
* `IsReadBack`: no control character takes digits that follow it
-/
namespace IdlBindings

open Json (hexValue?)

/-- The bytes of a text. -/
def utf8Bytes (t : String) : List UInt8 := t.toList.flatMap String.utf8EncodeChar

theorem utf8Bytes_injective : Function.Injective utf8Bytes := by
  intro s t h
  rw [← String.toByteArray_inj, ← String.utf8Encode_toList, ← String.utf8Encode_toList]
  exact congrArg List.toByteArray h

/-! ## Reading a literal -/

def isHexDigit (c : Char) : Bool := (hexValue? c).isSome

/-- The number that hexadecimal digits stand for. -/
def hexNumber (digits : List Char) : Nat :=
  digits.foldl (fun n d => 16 * n + (hexValue? d).getD 0) 0

/-- The bytes of a literal from behind its first quote. Behind `\x` stands the longest run of
digits, whose number has to be that of a byte. -/
def quotedBytes? : List Char → Option (List UInt8)
  | [] => none
  | '\\' :: 'x' :: cs =>
    let digits := cs.takeWhile isHexDigit
    if digits = [] ∨ 0x100 ≤ hexNumber digits then none
    else (quotedBytes? (cs.dropWhile isHexDigit)).map (UInt8.ofNat (hexNumber digits) :: ·)
  | '\\' :: e :: cs =>
    match letterEscapes.find? fun p => p.2 == e with
    | some (c, _) => (quotedBytes? cs).map (String.utf8EncodeChar c ++ ·)
    | none => none
  | c :: cs =>
    if c = '"' then if cs = [] then some [] else none
    else if c = '\\' ∨ c = '\n' then none
    else (quotedBytes? cs).map (String.utf8EncodeChar c ++ ·)
termination_by cs => cs.length
decreasing_by
  · have := (List.dropWhile_suffix isHexDigit (l := cs)).length_le
    simp only [List.length_cons]
    omega
  · simp only [List.length_cons]
    omega
  · simp

/-- The bytes that a literal stands for. -/
def literalBytes? (literal : String) : Option (List UInt8) :=
  match literal.toList with
  | '"' :: cs => quotedBytes? cs
  | _ => none

/-! ## Digits -/

variable {c : Char} {cs ds : List Char}

theorem toNat_of_isHexDigit (h : isHexDigit c = true) : 0x30 ≤ c.toNat := by
  have hle : ∀ d : Char, d ≤ c → d.toNat ≤ c.toNat := by
    intro d hd
    exact UInt32.le_iff_toNat_le.mp (Char.le_def.mp hd)
  simp only [isHexDigit, hexValue?] at h
  split_ifs at h with hdigit hlower hupper
  · exact hle '0' hdigit.1
  · exact (by decide : 0x30 ≤ 'a'.toNat).trans (hle 'a' hlower.1)
  · exact (by decide : 0x30 ≤ 'A'.toNat).trans (hle 'A' hupper.1)
  · cases h

theorem isHexDigit_hexDigit (n : Nat) : isHexDigit (hexDigit n) = true := by
  rw [isHexDigit, hexValue?_hexDigit]
  rfl

/-- A digit of a text is written as itself. -/
theorem Spelling.eq_of_isHexDigit (h : Spelling c cs) (hc : isHexDigit c = true) : cs = [c] := by
  have hle := toNat_of_isHexDigit hc
  cases h with
  | plain => rfl
  | letter h =>
      simp only [letterEscapes, List.mem_cons, Prod.mk.injEq, List.not_mem_nil, or_false] at h
      rcases h with ⟨rfl, _⟩ | ⟨rfl, _⟩ | ⟨rfl, _⟩ | ⟨rfl, _⟩ | ⟨rfl, _⟩ <;> cases hc
  | number h =>
      have := lt_of_isNumbered h
      omega

/-- Anything else is written as something that does not start with a digit. -/
theorem Spelling.head?_of_not_isHexDigit (h : Spelling c cs) (hc : ¬isHexDigit c = true) :
    ∃ d ds, cs = d :: ds ∧ ¬isHexDigit d = true := by
  cases h with
  | plain => exact ⟨c, [], rfl, hc⟩
  | letter _ => exact ⟨_, _, rfl, by decide⟩
  | number _ => exact ⟨_, _, rfl, by decide⟩

/-! ## Reading a quoted text -/

/-- The characters of a literal from behind its first quote. -/
def quotedChars (cs : List Char) : List Char := cs.flatMap cStringChar ++ ['"']

theorem quotedChars_cons : quotedChars (c :: cs) = cStringChar c ++ quotedChars cs := by
  rw [quotedChars, List.flatMap_cons, List.append_assoc, quotedChars]

theorem literalBytes?_cString (t : String) :
    literalBytes? (cString t) = quotedBytes? (quotedChars t.toList) := by
  rw [literalBytes?, toList_cString]
  rfl

/-- The digits that a literal goes on with are those that the text goes on with. -/
theorem takeWhile_quotedChars (cs : List Char) :
    (quotedChars cs).takeWhile isHexDigit = cs.takeWhile isHexDigit ∧
      (quotedChars cs).dropWhile isHexDigit = quotedChars (cs.dropWhile isHexDigit) := by
  induction cs with
  | nil => exact ⟨rfl, rfl⟩
  | cons c cs ih =>
      rw [quotedChars_cons]
      by_cases hc : isHexDigit c = true
      · rw [(spelling_cStringChar c).eq_of_isHexDigit hc]
        simpa [hc] using ih
      · obtain ⟨d, ds, hspelled, hd⟩ := (spelling_cStringChar c).head?_of_not_isHexDigit hc
        simp [hspelled, hc, hd, quotedChars_cons]

theorem quotedBytes?_plain (hquote : c ≠ '"') (hbackslash : c ≠ '\\') (hcontrol : 0x20 ≤ c.toNat) :
    quotedBytes? (c :: cs) = (quotedBytes? cs).map (String.utf8EncodeChar c ++ ·) := by
  have hfeed : c ≠ '\n' := by
    rintro rfl
    exact absurd hcontrol (by decide)
  rw [quotedBytes?, if_neg hquote, if_neg (not_or.mpr ⟨hbackslash, hfeed⟩)]
  · intro _ heq
    exact absurd heq hbackslash
  · intro _ _ heq
    exact absurd heq hbackslash

theorem quotedBytes?_letter {e : Char} (h : (c, e) ∈ letterEscapes) :
    quotedBytes? ('\\' :: e :: cs) = (quotedBytes? cs).map (String.utf8EncodeChar c ++ ·) := by
  simp only [letterEscapes, List.mem_cons, Prod.mk.injEq, List.not_mem_nil, or_false] at h
  rcases h with ⟨rfl, rfl⟩ | ⟨rfl, rfl⟩ | ⟨rfl, rfl⟩ | ⟨rfl, rfl⟩ | ⟨rfl, rfl⟩ <;>
    simp [quotedBytes?, letterEscapes]

/-- The number behind `\x` is made of the two digits of a control character and of all digits that
the text goes on with. -/
theorem quotedBytes?_number (a b : Nat) :
    quotedBytes? ('\\' :: 'x' :: hexDigit a :: hexDigit b :: quotedChars cs) =
      let n := hexNumber (hexDigit a :: hexDigit b :: cs.takeWhile isHexDigit)
      if 0x100 ≤ n then none
      else (quotedBytes? (quotedChars (cs.dropWhile isHexDigit))).map (UInt8.ofNat n :: ·) := by
  obtain ⟨htake, hdrop⟩ := takeWhile_quotedChars cs
  rw [quotedBytes?]
  simp [isHexDigit_hexDigit, htake, hdrop]

/-- The two digits of a control character are its number. -/
theorem hexNumber_of_isNumbered (h : isNumbered c = true) :
    hexNumber [hexDigit (c.toNat / 16), hexDigit c.toNat] = c.toNat := by
  have hlt := lt_of_isNumbered h
  simp only [hexNumber, List.foldl_cons, List.foldl_nil, hexValue?_hexDigit, Option.getD_some]
  omega

theorem cStringChar_of_isNumbered (h : isNumbered c = true) :
    cStringChar c = ['\\', 'x', hexDigit (c.toNat / 16), hexDigit c.toNat] := by
  have hlt := lt_of_isNumbered h
  have hspelling := spelling_cStringChar c
  generalize cStringChar c = spelled at hspelling
  cases hspelling with
  | plain _ _ hcontrol => omega
  | letter hletter =>
      simp only [letterEscapes, List.mem_cons, Prod.mk.injEq, List.not_mem_nil, or_false] at hletter
      rcases hletter with ⟨rfl, _⟩ | ⟨rfl, _⟩ | ⟨rfl, _⟩ | ⟨rfl, _⟩ | ⟨rfl, _⟩ <;> cases h
  | number => rfl

/-- A character is read as itself unless it is written by its number and a digit follows. -/
theorem quotedBytes?_cons_of_free (h : isNumbered c = true → ∀ d ∈ cs.head?, ¬isHexDigit d = true) :
    quotedBytes? (quotedChars (c :: cs)) =
      (quotedBytes? (quotedChars cs)).map (String.utf8EncodeChar c ++ ·) := by
  have hspelling := spelling_cStringChar c
  rw [quotedChars_cons]
  generalize cStringChar c = spelled at hspelling
  cases hspelling with
  | plain hquote hbackslash hcontrol => exact quotedBytes?_plain hquote hbackslash hcontrol
  | letter hletter => exact quotedBytes?_letter hletter
  | number hnumber =>
      have hlt := lt_of_isNumbered hnumber
      have htake : cs.takeWhile isHexDigit = [] := by
        cases cs with
        | nil => rfl
        | cons d cs => exact List.takeWhile_cons_of_neg (h hnumber d rfl)
      have hdrop : cs.dropWhile isHexDigit = cs := by
        have hsplit := List.takeWhile_append_dropWhile (p := isHexDigit) (l := cs)
        rwa [htake, List.nil_append] at hsplit
      have hbyte : String.utf8EncodeChar c = [UInt8.ofNat c.toNat] := by
        rw [String.utf8EncodeChar, if_pos]
        · rfl
        · exact (Nat.le_of_lt hlt).trans (by decide)
      have hsmall : ¬0x100 ≤ c.toNat := by omega
      simp only [List.cons_append, List.nil_append, quotedBytes?_number, htake, hdrop,
        hexNumber_of_isNumbered hnumber, hsmall, if_false, hbyte]

/-- A control character that takes a digit of the text takes all that follow. -/
theorem quotedBytes?_cons_of_taken (hc : isNumbered c = true) {bytes : List UInt8}
    (h : quotedBytes? (quotedChars (c :: cs)) = some bytes) :
    ∃ first rest, bytes = first :: rest ∧
      quotedBytes? (quotedChars (cs.dropWhile isHexDigit)) = some rest := by
  rw [quotedChars_cons, cStringChar_of_isNumbered hc] at h
  simp only [List.cons_append, List.nil_append, quotedBytes?_number] at h
  split_ifs at h
  obtain ⟨rest, hrest, rfl⟩ := Option.map_eq_some_iff.mp h
  exact ⟨_, rest, rfl, hrest⟩

theorem length_utf8_pos (c : Char) : 0 < (String.utf8EncodeChar c).length :=
  List.length_pos_of_ne_nil String.utf8EncodeChar_ne_nil

theorem length_flatMap_dropWhile_le (p : Char → Bool) (cs : List Char) :
    ((cs.dropWhile p).flatMap String.utf8EncodeChar).length ≤
      (cs.flatMap String.utf8EncodeChar).length := by
  conv_rhs => rw [← List.takeWhile_append_dropWhile (p := p) (l := cs)]
  rw [List.flatMap_append, List.length_append]
  exact Nat.le_add_left _ _

theorem quotedBytes?_nil : quotedBytes? (quotedChars []) = some [] := by
  simp [quotedChars, quotedBytes?]

/-- A literal never stands for more bytes than its text has. -/
theorem length_le_of_quotedBytes? {bytes : List UInt8}
    (h : quotedBytes? (quotedChars cs) = some bytes) :
    bytes.length ≤ (cs.flatMap String.utf8EncodeChar).length := by
  -- By the length of the text, since a number may take more than one character at once.
  induction hn : cs.length using Nat.strongRecOn generalizing cs bytes with
  | _ n ih =>
    cases cs with
    | nil =>
        rw [quotedBytes?_nil, Option.some.injEq] at h
        simp [← h]
    | cons c cs =>
        rw [List.length_cons] at hn
        rw [List.flatMap_cons, List.length_append]
        by_cases hc : isNumbered c = true
        · obtain ⟨first, rest, rfl, hrest⟩ := quotedBytes?_cons_of_taken hc h
          have hdrop := (List.dropWhile_suffix isHexDigit (l := cs)).length_le
          have hle := ih _ (by omega) hrest rfl
          have hcs := length_flatMap_dropWhile_le isHexDigit cs
          have hpos := length_utf8_pos c
          rw [List.length_cons]
          omega
        · rw [quotedBytes?_cons_of_free fun hnumber => absurd hnumber hc] at h
          obtain ⟨rest, hrest, rfl⟩ := Option.map_eq_some_iff.mp h
          have hle := ih _ (by omega) hrest rfl
          rw [List.length_append]
          omega

/-- Where a digit of the text is taken for one of a number, bytes are lost. -/
theorem length_lt_of_taken {d : Char} {bytes : List UInt8} (hc : isNumbered c = true)
    (hd : isHexDigit d = true) (h : quotedBytes? (quotedChars (c :: d :: cs)) = some bytes) :
    bytes.length < ((c :: d :: cs).flatMap String.utf8EncodeChar).length := by
  obtain ⟨first, rest, rfl, hrest⟩ := quotedBytes?_cons_of_taken hc h
  rw [List.dropWhile_cons_of_pos hd] at hrest
  have hle := length_le_of_quotedBytes? hrest
  have hcs := length_flatMap_dropWhile_le isHexDigit cs
  have hposc := length_utf8_pos c
  have hposd := length_utf8_pos d
  simp only [List.flatMap_cons, List.length_append, List.length_cons]
  omega

/-! ## Texts that are read back -/

/-- No control character that is written by its number has a hexadecimal digit right behind it. -/
def IsReadBack (t : String) : Prop :=
  t.toList.IsChain fun c d => isNumbered c = true → ¬isHexDigit d = true

instance (t : String) : Decidable (IsReadBack t) :=
  inferInstanceAs
    (Decidable (t.toList.IsChain fun c d => isNumbered c = true → ¬isHexDigit d = true))

theorem quotedBytes?_eq_iff :
    quotedBytes? (quotedChars cs) = some (cs.flatMap String.utf8EncodeChar) ↔
      cs.IsChain fun c d => isNumbered c = true → ¬isHexDigit d = true := by
  induction cs with
  | nil => simp [quotedBytes?_nil]
  | cons c cs ih =>
      rw [List.isChain_cons, ← ih]
      by_cases hfree : isNumbered c = true → ∀ d ∈ cs.head?, ¬isHexDigit d = true
      · have hhead : ∀ d ∈ cs.head?, isNumbered c = true → ¬isHexDigit d = true :=
          fun d hd hc => hfree hc d hd
        rw [quotedBytes?_cons_of_free hfree, List.flatMap_cons, Option.map_eq_some_iff]
        simp only [List.append_cancel_left_eq, exists_eq_right]
        exact (and_iff_right hhead).symm
      · refine iff_of_false ?_ fun h => hfree fun hc d hd => h.1 d hd hc
        intro h
        simp only [not_forall, not_not] at hfree
        obtain ⟨hc, d, hhead, hd⟩ := hfree
        obtain ⟨ds, rfl⟩ : ∃ ds, cs = d :: ds := List.head?_eq_some_iff.mp hhead
        exact Nat.lt_irrefl _ (length_lt_of_taken hc hd h)

/-- **A literal stands for the text that it quotes** exactly if no control character takes a digit
that follows it. -/
theorem literal_reads_back_iff (t : String) :
    literalBytes? (cString t) = some (utf8Bytes t) ↔ IsReadBack t := by
  rw [literalBytes?_cString]
  exact quotedBytes?_eq_iff

/-- The text of two characters has the literal of one. -/
theorem digit_taken_for_number :
    literalBytes? (cString "\x01a") = some [0x1a] ∧
      literalBytes? (cString "\x01a") ≠ some (utf8Bytes "\x01a") := by
  have hread : literalBytes? (cString "\x01a") = some [0x1a] := by cbv
  refine ⟨hread, ?_⟩
  rw [hread]
  decide

end IdlBindings
