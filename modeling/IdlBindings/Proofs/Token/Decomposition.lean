import IdlBindings.Proofs.Token.Layout
import Mathlib.Data.List.Induction
import Mathlib.Data.List.TakeWhile

/-!
# Where tokens stand in a text

Reading cuts a text into gaps and tokens and throws nothing away: put together in their order, they
are the text again. So where a token stands is told by the characters before it, which give its byte
offset, its line and its column. A text that cannot be read is cut in the same way up to the place
that is reported, and what follows that place starts with the fault.

## Main definitions

* `Position.behind`: the place behind some characters, counted from them
* `Cut`: a text cut into gaps and tokens, up to a rest
* `LexFault.StartsAt`: a text starts with a fault
-/
namespace IdlBindings

/-! ## Places -/

/-- The place behind some characters: their bytes, the line feeds among them, and the characters
after the last line feed. -/
def Position.behind (before : List Char) : Position where
  offset := (String.ofList before).utf8ByteSize
  line := before.count '\n' + 1
  column := (before.reverse.takeWhile fun c => c ≠ '\n').length + 1

theorem Position.behind_concat (before : List Char) (c : Char) :
    behind (before ++ [c]) = (behind before).next c := by
  have hsize : (String.ofList (before ++ [c])).utf8ByteSize =
      (String.ofList before).utf8ByteSize + c.utf8Size := by simp
  by_cases hc : c = '\n'
  · rw [behind, hsize, next, if_pos hc]
    simp [behind, hc]
  · rw [behind, hsize, next, if_neg hc]
    simp [behind, hc]

/-- Walking over the characters leads to the place behind them. -/
theorem Position.after_start (before : List Char) : start.after before = behind before := by
  induction before using List.reverseRecOn with
  | nil => rfl
  | append_singleton before c ih =>
      rw [after_append, ih, behind_concat]
      rfl

/-! ## Cuts -/

/-- The text that stands behind `before` is cut into gaps and tokens, up to a gap with `rest`
behind it. Every token is at its place and ends where it has to. -/
inductive Cut (rest : List Char) : List Char → List Token → List Char → Prop
  | stop {before gap : List Char} (hgap : Gap gap) : Cut rest before [] (gap ++ rest)
  | token {before gap text : List Char} {kind : TokenKind} {tokens : List Token} (hgap : Gap gap)
      (hkind : kind.isWritable = true) (hapart : ∀ c ∈ text.head?, kind.extendedBy c = false)
      (htext : Cut rest (before ++ gap ++ kind.spelling) tokens text) :
      Cut rest before (⟨kind, .behind (before ++ gap)⟩ :: tokens) (gap ++ kind.spelling ++ text)

/-- What may be left behind the last gap of a text that can be read: nothing, or a comment that ends
with the text and not with a line feed. -/
def IsReadEnd (rest : List Char) : Prop :=
  rest = [] ∨ ∃ body, '\n' ∉ body ∧ rest = '/' :: '/' :: body

/-- The text starts with a fault. -/
def LexFault.StartsAt : LexFault → List Char → Prop
  | openComment, cs => ∃ body, cs = '/' :: '*' :: body ∧ ¬['*', '/'] <:+: body
  | openString, cs => ∃ value rest, cs = '"' :: value ++ rest ∧
      isQuotable (String.ofList value) = true ∧ ∀ c ∈ rest.head?, c = '\n'
  | strayDot, cs => ∃ rest, cs = '.' :: rest ∧ ¬['.', '.'] <+: rest
  | unexpected c, cs => ∃ rest, cs = c :: rest ∧ isBlank c = false ∧
      (∀ kind : TokenKind, kind.isWritable = true → kind.spelling.head? ≠ some c) ∧
      (c = '/' → ∀ d ∈ rest.head?, d ≠ '/' ∧ d ≠ '*')

variable {c : Char} {cs rest before gap text body : List Char} {kind : TokenKind}
  {tokens : List Token} {fault : LexFault} {piece : Piece}

theorem Gap.append {gap' : List Char} (hgap : Gap gap) (hgap' : Gap gap') : Gap (gap ++ gap') := by
  induction hgap with
  | nil => exact hgap'
  | blank hc _ ih => exact .blank hc ih
  | @lineComment body cs hbody _ ih => simpa using Gap.lineComment hbody ih
  | @blockComment body cs hbody _ ih => simpa using Gap.blockComment hbody ih

theorem Gap.of_blanks (hgap : gap.all isBlank = true) : Gap gap := by
  induction gap with
  | nil => exact .nil
  | cons c gap ih =>
      rw [List.all_cons, Bool.and_eq_true] at hgap
      exact .blank hgap.1 (ih hgap.2)

/-- A gap before a layout belongs to its first gap. -/
theorem Layout.after_gap {kinds : List TokenKind} (hgap : Gap gap) (h : Layout kinds text) :
    Layout kinds (gap ++ text) := by
  cases h with
  | nil hgap' => exact .nil (hgap.append hgap')
  | cons hgap' hkind hrest hapart =>
      rw [← List.append_assoc, ← List.append_assoc]
      exact .cons (hgap.append hgap') hkind hrest hapart

/-- A gap before a cut text belongs to its first gap. -/
theorem Cut.after_gap (hgap : Gap gap) (h : Cut rest (before ++ gap) tokens text) :
    Cut rest before tokens (gap ++ text) := by
  cases h with
  | stop hgap' =>
      rw [← List.append_assoc]
      exact .stop (hgap.append hgap')
  | @token _ gap' text kind tokens hgap' hkind hapart htext =>
      have hcut : Cut rest before (⟨kind, .behind (before ++ (gap ++ gap'))⟩ :: tokens)
          (gap ++ gap' ++ kind.spelling ++ text) :=
        .token (hgap.append hgap') hkind hapart (by simpa using htext)
      simpa using hcut

/-- A token right before a cut text. -/
theorem Cut.after_token (hkind : kind.isWritable = true)
    (hapart : ∀ c ∈ text.head?, kind.extendedBy c = false)
    (h : Cut rest (before ++ kind.spelling) tokens text) :
    Cut rest before (⟨kind, .behind before⟩ :: tokens) (kind.spelling ++ text) := by
  have hcut : Cut rest before (⟨kind, .behind (before ++ [])⟩ :: tokens)
      ([] ++ kind.spelling ++ text) := .token .nil hkind hapart (by simpa using h)
  simpa using hcut

/-! ## Pieces -/

theorem head?_dropWhile_stop {p : Char → Bool} : ∀ c ∈ (cs.dropWhile p).head?, p c = false := by
  intro c hc
  have hne := List.head?_dropWhile_not p cs
  rw [Option.mem_def.mp hc] at hne
  exact hne

/-- What a piece is: white space or a complete comment; a comment that the text ends in; or a token,
whose spelling it is and which goes no further. -/
inductive IsPiece : Piece → Prop
  | gap {text rest : List Char} (hgap : Gap text) : IsPiece ⟨none, text, rest⟩
  | openLine {body : List Char} (hbody : '\n' ∉ body) : IsPiece ⟨none, '/' :: '/' :: body, []⟩
  | token {kind : TokenKind} {rest : List Char} (hkind : kind.isWritable = true)
      (hapart : ∀ c ∈ rest.head?, kind.extendedBy c = false) :
      IsPiece ⟨some kind, kind.spelling, rest⟩

theorem notMem_takeWhile_ne (d : Char) (cs : List Char) :
    d ∉ cs.takeWhile fun c => decide (c ≠ d) := by
  intro hd
  simpa using List.mem_takeWhile_imp hd

/-- A block comment that ends does so at the first closing mark. -/
theorem exists_of_commentEnd (h : commentEnd cs = some (text, rest)) :
    ∃ body, text = body ++ ['*', '/'] ∧ ¬['*', '/'] <:+: body := by
  fun_induction commentEnd cs generalizing text rest with
  | case1 => simp at h
  | case2 => simp at h
  | case3 c d tail hc =>
      simp only [Option.some.injEq, Prod.mk.injEq] at h
      obtain ⟨rfl, rfl⟩ := h
      obtain ⟨rfl, rfl⟩ := hc
      exact ⟨[], rfl, by simp⟩
  | case4 c d tail hc ih =>
      obtain ⟨⟨t, r⟩, ht, heq⟩ := Option.map_eq_some_iff.1 h
      simp only [Prod.mk.injEq] at heq
      obtain ⟨rfl, rfl⟩ := heq
      obtain ⟨body, rfl, hbody⟩ := ih ht
      refine ⟨c :: body, rfl, ?_⟩
      have hwhole := commentEnd_append ht
      rw [List.infix_cons_iff]
      rintro (hfront | hinfix)
      · -- The mark would stand right here, where it was not found.
        cases body with
        | nil => simp at hfront
        | cons e body =>
            obtain ⟨rfl, rfl⟩ : '*' = c ∧ '/' = e := by simpa using hfront
            obtain rfl : '/' = d := by simpa using congrArg List.head? hwhole
            exact hc ⟨rfl, rfl⟩
      · exact hbody hinfix

theorem not_infix_of_commentEnd (h : commentEnd cs = none) : ¬['*', '/'] <:+: cs := by
  fun_induction commentEnd cs with
  | case1 => simp
  | case2 c =>
      intro hinfix
      simpa using hinfix.length_le
  | case3 => simp at h
  | case4 c d tail hc ih =>
      rw [List.infix_cons_iff]
      rintro (hfront | hinfix)
      · obtain ⟨rfl, rfl⟩ : '*' = c ∧ '/' = d := by simpa using hfront
        exact hc ⟨rfl, rfl⟩
      · exact ih (by simpa using h) hinfix

theorem isPiece_of_scanComment (h : scanComment cs = .ok piece) : IsPiece piece := by
  unfold scanComment at h
  split at h
  · next cs =>
    have hbody := notMem_takeWhile_ne '\n' cs
    split at h
    · next hd =>
      cases h
      exact .openLine hbody
    · next c rest hd =>
      cases h
      have hstop := head?_dropWhile_stop c (by rw [hd]; rfl)
      obtain rfl : c = '\n' := by simpa using hstop
      exact .gap (.lineComment hbody .nil)
  · next cs =>
    split at h
    · next text rest hc =>
      cases h
      obtain ⟨body, rfl, hbody⟩ := exists_of_commentEnd hc
      exact .gap (.blockComment hbody .nil)
    · cases h
  · cases h

theorem isPiece_of_scanString (h : scanString cs = .ok piece) : IsPiece piece := by
  unfold scanString at h
  split at h
  · next rest hd =>
    cases h
    have hquotable : isQuotable
        (String.ofList (cs.takeWhile fun c => decide (c ≠ '"') && decide (c ≠ '\n'))) = true := by
      rw [isQuotable, String.toList_ofList]
      exact List.all_takeWhile
    have hpiece := @IsPiece.token (.text _) rest hquotable fun _ _ => rfl
    simpa [TokenKind.spelling] using hpiece
  · cases h

theorem isPiece_of_scanEllipsis (h : scanEllipsis cs = .ok piece) : IsPiece piece := by
  unfold scanEllipsis at h
  split at h
  · cases h
    exact @IsPiece.token .ellipsis _ rfl fun _ _ => rfl
  · cases h

/-- A run of a class of characters goes as far as the class. -/
theorem isPiece_of_run {p : Char → Bool} (toKind : String → TokenKind)
    (hkind : (toKind (String.ofList (cs.takeWhile p))).isWritable = true)
    (hspelling : ∀ s, (toKind s).spelling = s.toList)
    (hextended : ∀ s c, (toKind s).extendedBy c = p c) :
    IsPiece (Piece.run p (fun s => some (toKind s)) cs) := by
  have hapart : ∀ c ∈ (cs.dropWhile p).head?,
      (toKind (String.ofList (cs.takeWhile p))).extendedBy c = false := by
    simpa only [hextended] using head?_dropWhile_stop
  have hpiece := IsPiece.token hkind hapart
  rwa [hspelling, String.toList_ofList] at hpiece

theorem isNumber_run (hc : c.isDigit = true) :
    isNumber (String.ofList ((c :: cs).takeWhile isNumberPart)) = true := by
  have hall := List.all_takeWhile (p := isNumberPart) (l := c :: cs)
  have hne : c ≠ '-' := by rintro rfl; revert hc; decide
  rw [List.takeWhile_cons_of_pos (isNumberPart_of_isDigit hc)] at hall ⊢
  rw [isNumber, String.toList_ofList]
  split
  · next heq => cases heq
  · next heq => cases heq; exact absurd rfl hne
  · next heq => simpa [startsNumber, hc] using hall

theorem isPiece_of_negative (hcs : startsNumber cs = true) :
    IsPiece ((Piece.run isNumberPart (fun s => some (.number ("-" ++ s))) cs).cons '-') := by
  cases cs with
  | nil => cases hcs
  | cons c cs =>
      have hc : c.isDigit = true := hcs
      have hnumber : isNumber ("-" ++ String.ofList ((c :: cs).takeWhile isNumberPart)) = true := by
        have hlist : ("-" ++ String.ofList ((c :: cs).takeWhile isNumberPart)).toList =
            '-' :: (c :: cs).takeWhile isNumberPart := by simp
        rw [isNumber, hlist, List.takeWhile_cons_of_pos (isNumberPart_of_isDigit hc)]
        simp [startsNumber, hc, isNumberPart_of_isDigit hc]
      have hpiece := @IsPiece.token (.number _) _ hnumber
        (@head?_dropWhile_stop (c :: cs) isNumberPart)
      simpa [TokenKind.spelling, Piece.cons, Piece.run] using hpiece

theorem isIdentifier_run (hc : isIdentStart c = true) :
    isIdentifier (String.ofList ((c :: cs).takeWhile isIdentPart)) = true := by
  rw [List.takeWhile_cons_of_pos (isIdentPart_of_isIdentStart hc), isIdentifier,
    String.toList_ofList]
  simp [hc]

theorem isPiece_of_scan (h : scan c cs = .ok piece) : IsPiece piece := by
  unfold scan at h
  split at h
  · cases h
    exact .gap (.of_blanks List.all_takeWhile)
  split at h
  · exact isPiece_of_scanComment h
  split at h
  · exact isPiece_of_scanString h
  split at h
  · next hc =>
    cases h
    exact isPiece_of_run .number (isNumber_run hc) (fun _ => rfl) fun _ _ => rfl
  -- A hyphen is a sign if a digit follows, and a mark of its own if none does.
  split at h
  · next hc =>
    cases h
    obtain ⟨rfl, hcs⟩ := hc
    exact isPiece_of_negative hcs
  split at h
  · next hc =>
    cases h
    exact isPiece_of_run .ident (isIdentifier_run hc) (fun _ => rfl) fun _ _ => rfl
  split at h
  · exact isPiece_of_scanEllipsis h
  split at h
  · next hhyphen _ _ _ mark hmark =>
    cases h
    obtain rfl := Punct.toChar_of_ofChar? hmark
    refine @IsPiece.token (.punct mark) cs rfl ?_
    intro c hc
    cases mark with
    | minus =>
        cases cs with
        | nil => cases hc
        | cons d cs =>
            cases hc
            simpa [startsNumber, Punct.toChar, TokenKind.extendedBy] using hhyphen
    | _ => rfl
  · cases h

/-! ## Faults -/

/-- The characters that tokens start with. -/
theorem startsToken_of_spelling (hkind : kind.isWritable = true)
    (hhead : kind.spelling.head? = some c) :
    isIdentStart c = true ∨ c.isDigit = true ∨ c = '"' ∨ c = '.' ∨
      (Punct.ofChar? c).isSome = true := by
  cases kind with
  | ident name =>
      simp only [TokenKind.isWritable, isIdentifier] at hkind
      simp only [TokenKind.spelling] at hhead
      split at hkind
      · cases hkind
      · next d ds hname =>
          rw [hname] at hhead
          cases hhead
          exact .inl (Bool.and_eq_true_iff.mp hkind).1
  | text value =>
      cases hhead
      simp
  | number digits =>
      simp only [TokenKind.isWritable, isNumber] at hkind
      simp only [TokenKind.spelling] at hhead
      split at hkind
      · cases hkind
      · next ds hdigits =>
          rw [hdigits] at hhead
          cases hhead
          exact .inr (.inr (.inr (.inr (by decide))))
      · next ds _ _ =>
          cases hdigits : digits.toList with
          | nil => simp [hdigits] at hhead
          | cons d ds =>
              rw [hdigits] at hhead hkind
              cases hhead
              exact .inr (.inl (Bool.and_eq_true_iff.mp hkind).1)
  | punct mark =>
      cases hhead
      simp
  | ellipsis =>
      cases hhead
      simp

theorem startsAt_of_scanComment (h : scanComment cs = .error fault) :
    fault.StartsAt ('/' :: cs) := by
  unfold scanComment at h
  split at h
  · split at h <;> cases h
  · next cs =>
    split at h
    · cases h
    · next hc =>
      cases h
      exact ⟨cs, rfl, not_infix_of_commentEnd hc⟩
  · next hline hblock =>
    cases h
    refine ⟨cs, rfl, by decide, ?_, ?_⟩
    · intro kind hkind hhead
      have hstarts := startsToken_of_spelling hkind hhead
      revert hstarts
      decide
    · intro _ d hd
      cases cs with
      | nil => cases hd
      | cons e cs =>
          cases hd
          exact ⟨fun heq => hline cs (by rw [heq]), fun heq => hblock cs (by rw [heq])⟩

theorem startsAt_of_scanString (h : scanString cs = .error fault) :
    fault.StartsAt ('"' :: cs) := by
  unfold scanString at h
  split at h
  · cases h
  · next hquote =>
    cases h
    refine ⟨cs.takeWhile fun c => c ≠ '"' && c ≠ '\n',
      cs.dropWhile fun c => c ≠ '"' && c ≠ '\n', ?_, ?_, ?_⟩
    · rw [List.cons_append, List.takeWhile_append_dropWhile]
    · rw [isQuotable, String.toList_ofList]
      exact List.all_takeWhile
    · intro c hc
      have hstop := head?_dropWhile_stop c hc
      by_cases hne : c = '"'
      · subst hne
        obtain ⟨rest, hrest⟩ := List.head?_eq_some_iff.mp hc
        exact absurd hrest (hquote rest)
      · simpa [hne] using hstop

theorem startsAt_of_scanEllipsis (h : scanEllipsis cs = .error fault) :
    fault.StartsAt ('.' :: cs) := by
  unfold scanEllipsis at h
  split at h
  · cases h
  · next hdots =>
    cases h
    refine ⟨cs, rfl, ?_⟩
    rintro ⟨rest, hrest⟩
    exact hdots rest hrest.symm

/-- Where no piece can be cut off, a fault starts. -/
theorem startsAt_of_scan (h : scan c cs = .error fault) : fault.StartsAt (c :: cs) := by
  unfold scan at h
  split at h
  · cases h
  next hblank =>
  split at h
  · next hc =>
    subst hc
    exact startsAt_of_scanComment h
  next hslash =>
  split at h
  · next hc =>
    subst hc
    exact startsAt_of_scanString h
  next hquote =>
  split at h
  · cases h
  next hdigit =>
  split at h
  · cases h
  split at h
  · cases h
  next hident =>
  split at h
  · next hc =>
    subst hc
    exact startsAt_of_scanEllipsis h
  next hdot =>
  split at h
  · cases h
  next hpunct =>
  cases h
  refine ⟨cs, rfl, by simpa using hblank, ?_, fun hc => absurd hc hslash⟩
  intro kind hkind hhead
  rcases startsToken_of_spelling hkind hhead with hs | hs | hs | hs | hs
  · exact hident hs
  · exact hdigit hs
  · exact hquote hs
  · exact hdot hs
  · simp [hpunct] at hs

/-! ## Texts -/

/-- What reading a text behind `before` comes to: all its tokens at their places and the place of
its end, or a fault and the place where it starts, with tokens up to there. -/
def IsReading (before text : List Char) : Except LexError TokenStream → Prop
  | .ok s => s.stop = .behind (before ++ text) ∧
      ∃ rest, IsReadEnd rest ∧ Cut rest before s.tokens text
  | .error e => ∃ cut rest tokens, text = cut ++ rest ∧ Cut rest before tokens text ∧
      e.position = .behind (before ++ cut) ∧ e.fault.StartsAt rest

namespace IsReading

theorem nil : IsReading before [] (.ok ⟨[], .behind before⟩) :=
  ⟨by simp, [], .inl rfl, .stop .nil⟩

theorem openLine (hbody : '\n' ∉ body) :
    IsReading before ('/' :: '/' :: body) (.ok ⟨[], .behind (before ++ '/' :: '/' :: body)⟩) :=
  ⟨rfl, _, .inr ⟨body, hbody, rfl⟩, .stop .nil⟩

theorem of_fault (hfault : fault.StartsAt text) :
    IsReading before text (.error ⟨fault, .behind before⟩) :=
  ⟨[], text, [], rfl, .stop .nil, by simp, hfault⟩

theorem after_gap {result : Except LexError TokenStream} (hgap : Gap gap)
    (h : IsReading (before ++ gap) text result) : IsReading before (gap ++ text) result := by
  cases result with
  | ok s =>
      obtain ⟨hstop, rest, hrest, hcut⟩ := h
      exact ⟨by simpa using hstop, rest, hrest, hcut.after_gap hgap⟩
  | error e =>
      obtain ⟨cut, rest, tokens, rfl, hcut, hposition, hfault⟩ := h
      exact ⟨gap ++ cut, rest, tokens, by simp, hcut.after_gap hgap, by simpa using hposition,
        hfault⟩

theorem after_token_ok {s : TokenStream} (hkind : kind.isWritable = true)
    (hapart : ∀ c ∈ text.head?, kind.extendedBy c = false)
    (h : IsReading (before ++ kind.spelling) text (.ok s)) :
    IsReading before (kind.spelling ++ text)
      (.ok { s with tokens := ⟨kind, .behind before⟩ :: s.tokens }) := by
  obtain ⟨hstop, rest, hrest, hcut⟩ := h
  exact ⟨by simpa using hstop, rest, hrest, hcut.after_token hkind hapart⟩

theorem after_token_error {e : LexError} (hkind : kind.isWritable = true)
    (hapart : ∀ c ∈ text.head?, kind.extendedBy c = false)
    (h : IsReading (before ++ kind.spelling) text (.error e)) :
    IsReading before (kind.spelling ++ text) (.error e) := by
  obtain ⟨cut, rest, tokens, rfl, hcut, hposition, hfault⟩ := h
  exact ⟨kind.spelling ++ cut, rest, _, by simp, hcut.after_token hkind hapart,
    by simpa using hposition, hfault⟩

end IsReading

theorem Position.after_behind (before cs : List Char) :
    (behind before).after cs = behind (before ++ cs) := by
  rw [← after_start, ← after_start, after_append]

theorem lexFrom_nil (n : Nat) (p : Position) : lexFrom n p [] = .ok ⟨[], p⟩ := by
  cases n <;> rfl

/-- The pieces of a text are put together one by one, and the bound on their number is not felt. -/
theorem isReading_lexFrom {n : Nat} (before : List Char) (hn : cs.length ≤ n) :
    IsReading before cs (lexFrom n (.behind before) cs) := by
  induction n generalizing before cs with
  | zero =>
      obtain rfl : cs = [] := List.length_eq_zero_iff.mp (Nat.le_zero.mp hn)
      rw [lexFrom_nil]
      exact .nil
  | succ n ih =>
      cases cs with
      | nil =>
          rw [lexFrom_nil]
          exact .nil
      | cons c cs =>
          rw [lexFrom_succ_cons]
          cases hscan : scan c cs with
          | error fault => exact .of_fault (startsAt_of_scan hscan)
          | ok piece =>
              have hlt := length_rest_lt_of_scan hscan
              have hrest : IsReading (before ++ piece.text) piece.rest
                  (lexFrom n (.behind (before ++ piece.text)) piece.rest) := ih _ (by omega)
              rw [← text_append_rest_of_scan hscan]
              simp only [Position.after_behind]
              cases isPiece_of_scan hscan with
              | gap hgap =>
                  refine .after_gap hgap ?_
                  revert hrest
                  cases lexFrom n _ _ <;> exact id
              | openLine hbody =>
                  simp only [lexFrom_nil, List.append_nil]
                  exact .openLine hbody
              | token hkind hapart =>
                  revert hrest
                  cases lexFrom n _ _ with
                  | error e => exact .after_token_error hkind hapart
                  | ok s => exact .after_token_ok hkind hapart

theorem Cut.areWritable (h : Cut rest before tokens text) :
    TokenKind.areWritable (tokens.map Token.kind) = true := by
  induction h with
  | stop => rfl
  | token _ hkind _ _ ih => rw [List.map_cons, TokenKind.areWritable_cons, hkind, ih, Bool.and_self]

/-- A text that is read is cut as a whole, and its end is where the characters end. -/
theorem exists_cut_of_ofText {source : String} {s : TokenStream}
    (hs : TokenStream.ofText source = .ok s) :
    s.stop = .behind source.toList ∧
      ∃ rest, IsReadEnd rest ∧ Cut rest [] s.tokens source.toList := by
  have hreading := isReading_lexFrom [] (Nat.le_refl source.toList.length)
  have hstart : Position.behind [] = .start := rfl
  rw [TokenStream.ofText] at hs
  rw [hstart, hs] at hreading
  exact hreading

/-- **Reading loses nothing and places every token.** A text that is read is its tokens as they are
spelled, with gaps between them; each token is at the place told by the text before it, and so is
the end. If a text cannot be read, this holds up to the place that is reported, where the fault
starts. A comment at the end of a text may lack its line feed. -/
theorem reading_lossless (source : String) :
    (∀ s, TokenStream.ofText source = .ok s →
      s.stop = .behind source.toList ∧
        ∃ rest, IsReadEnd rest ∧ Cut rest [] s.tokens source.toList) ∧
    ∀ e, TokenStream.ofText source = .error e →
      ∃ cut rest tokens, source.toList = cut ++ rest ∧ Cut rest [] tokens source.toList ∧
        e.position = .behind cut ∧ e.fault.StartsAt rest := by
  have hreading := isReading_lexFrom [] (Nat.le_refl source.toList.length)
  have hstart : Position.behind [] = .start := rfl
  rw [hstart] at hreading
  constructor
  · intro s hs
    rw [TokenStream.ofText] at hs
    rw [hs] at hreading
    exact hreading
  · intro e he
    rw [TokenStream.ofText] at he
    rw [he] at hreading
    exact hreading

/-- Two bytes of a character in a comment, its line feed, and a comment that the text ends in. The
fault in the second text stands behind a token. -/
theorem reading_lossless_accents :
    (∃ s, TokenStream.ofText "/* \u00e9\n */ enum // end" = .ok s ∧
      s.tokens = [⟨.ident "enum", ⟨10, 2, 5⟩⟩] ∧
      ∃ rest, IsReadEnd rest ∧ Cut rest [] s.tokens "/* \u00e9\n */ enum // end".toList) ∧
    ∃ e, TokenStream.ofText "x \"\u00e9" = .error e ∧ e.position = ⟨2, 1, 3⟩ ∧
      ∃ cut rest, "x \"\u00e9".toList = cut ++ rest ∧ e.fault.StartsAt rest := by
  refine ⟨⟨_, rfl, rfl, ?_⟩, ⟨_, rfl, rfl, ?_⟩⟩
  · exact ((reading_lossless "/* \u00e9\n */ enum // end").1 _ rfl).2
  · obtain ⟨cut, rest, _, htext, _, _, hfault⟩ := (reading_lossless "x \"\u00e9").2 _ rfl
    exact ⟨cut, rest, htext, hfault⟩

end IdlBindings
