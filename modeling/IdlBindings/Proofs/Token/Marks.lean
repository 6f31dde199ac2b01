import IdlBindings.Proofs.Token.Decomposition
import Mathlib.Data.List.Nodup

/-!
# Marks of a text

A mark is a place where a token starts, or the place of the end of the text. A diagnostic shows the
line and the column of a mark, and that is enough to find it: every token has a character, so the
marks of a text follow each other in the order in which one reads, and no two of them are in the
same line and column. What a diagnostic says of a token is enough too: tokens of a text that are
described by the same words are of the same kind.

## Main definitions

* `Position.Before`: the order in which one reads
* `TokenStream.marks`: the marks of the tokens and of the end
-/
namespace IdlBindings

/-! ## The order of places -/

namespace Position

/-- On an earlier line, or before it on the same. -/
def Before (p q : Position) : Prop := p.line < q.line ∨ p.line = q.line ∧ p.column < q.column

/-- What is shown of a place. -/
def place (p : Position) : Nat × Nat := (p.line, p.column)

variable {p q r : Position}

theorem Before.place_ne (h : p.Before q) : p.place ≠ q.place := by
  intro heq
  obtain ⟨hline, hcolumn⟩ := Prod.mk.inj heq
  unfold Before at h
  omega

theorem Before.trans (hpq : p.Before q) (hqr : q.Before r) : p.Before r := by
  unfold Before at *
  omega

theorem before_next (p : Position) (c : Char) : p.Before (p.next c) := by
  unfold next
  split
  · exact .inl (Nat.lt_succ_self _)
  · exact .inr ⟨rfl, Nat.lt_succ_self _⟩

theorem before_after {cs : List Char} (hcs : cs ≠ []) (p : Position) : p.Before (p.after cs) := by
  induction cs generalizing p with
  | nil => exact absurd rfl hcs
  | cons c cs ih =>
      rw [after_cons]
      cases cs with
      | nil => exact before_next p c
      | cons d ds => exact (before_next p c).trans (ih (List.cons_ne_nil d ds) (p.next c))

/-- More characters lead further. -/
theorem behind_before {more : List Char} (hmore : more ≠ []) (before : List Char) :
    (behind before).Before (behind (before ++ more)) := by
  rw [← after_behind]
  exact before_after hmore _

end Position

/-! ## Marks -/

/-- A place of a text and the kind of the token that starts there, or none at the end. -/
structure Mark where
  kind : Option TokenKind
  position : Position
deriving DecidableEq, Repr

def Token.mark (t : Token) : Mark := ⟨some t.kind, t.position⟩

/-- The marks of the tokens, then that of the end. -/
def TokenStream.marks (s : TokenStream) : List Mark := s.tokens.map Token.mark ++ [⟨none, s.stop⟩]

namespace TokenStream

/-- The mark of the next token. -/
def mark (s : TokenStream) : Mark := ⟨s.peek, s.position⟩

theorem marks_eq_cons (s : TokenStream) : s.marks = s.mark :: s.marks.tail := by
  obtain ⟨tokens, stop⟩ := s
  cases tokens <;> rfl

/-- Behind the mark of a token comes that of the next one, and behind that of the end none. -/
theorem head?_tail_marks (s : TokenStream) :
    s.marks.tail.head? = if s.peek = none then none else some s.drop.mark := by
  obtain ⟨tokens, stop⟩ := s
  match tokens with
  | [] => rfl
  | [t] => rfl
  | t :: u :: ts => rfl

theorem drop_of_peek_eq_none {s : TokenStream} (h : s.peek = none) : s.drop = s := by
  obtain ⟨tokens, stop⟩ := s
  cases tokens with
  | nil => rfl
  | cons t ts => cases h

theorem headD_tail_marks (s : TokenStream) : s.marks.tail.headD s.mark = s.drop.mark := by
  rw [List.headD_eq_head?_getD, head?_tail_marks]
  split
  · next hpeek => rw [drop_of_peek_eq_none hpeek]; rfl
  · rfl

end TokenStream

variable {rest before text : List Char} {tokens : List Token}

theorem TokenKind.spelling_ne_nil {kind : TokenKind} (hkind : kind.isWritable = true) :
    kind.spelling ≠ [] := by
  obtain ⟨c, cs, hspelling, _⟩ := @scan_spelling [] kind hkind (by simp)
  rw [hspelling]
  exact List.cons_ne_nil c cs

/-- Where a token of a cut text starts, the text has been read up to some place and goes on. -/
theorem Cut.exists_position (h : Cut rest before tokens text) {t : Token} (ht : t ∈ tokens) :
    ∃ done more, text = done ++ more ∧ more ≠ [] ∧ t.position = .behind (before ++ done) := by
  induction h with
  | stop => cases ht
  | @token before gap text kind tokens _ hkind _ _ ih =>
      rcases List.mem_cons.mp ht with rfl | ht
      · refine ⟨gap, kind.spelling ++ text, List.append_assoc _ _ _, ?_, rfl⟩
        exact List.append_ne_nil_of_left_ne_nil (TokenKind.spelling_ne_nil hkind) text
      · obtain ⟨done, more, rfl, hmore, hposition⟩ := ih ht
        exact ⟨gap ++ kind.spelling ++ done, more, by simp, hmore, by simp [hposition]⟩

/-- The tokens of a cut text are in the order in which one reads. -/
theorem Cut.pairwise_before (h : Cut rest before tokens text) :
    tokens.Pairwise fun t u => t.position.Before u.position := by
  induction h with
  | stop => exact .nil
  | @token before gap text kind tokens _ hkind _ htext ih =>
      refine List.pairwise_cons.mpr ⟨fun u hu => ?_, ih⟩
      obtain ⟨done, more, _, _, hposition⟩ := htext.exists_position hu
      have hspelling := List.append_ne_nil_of_left_ne_nil (TokenKind.spelling_ne_nil hkind) done
      rw [hposition, List.append_assoc _ kind.spelling]
      exact Position.behind_before hspelling _

variable {source : String} {s : TokenStream}

/-- **Marks are in the order in which one reads.** -/
theorem pairwise_before_marks (hs : TokenStream.ofText source = .ok s) :
    s.marks.Pairwise fun a b => a.position.Before b.position := by
  obtain ⟨hstop, rest, _, hcut⟩ := exists_cut_of_ofText hs
  rw [TokenStream.marks, List.pairwise_append, List.pairwise_map]
  refine ⟨hcut.pairwise_before, List.pairwise_singleton _ _, ?_⟩
  intro a ha b hb
  obtain ⟨t, ht, rfl⟩ := List.mem_map.mp ha
  obtain rfl := List.mem_singleton.mp hb
  obtain ⟨done, more, htext, hmore, hposition⟩ := hcut.exists_position ht
  rw [hstop, htext, Token.mark, hposition]
  exact Position.behind_before hmore _

/-- No two marks are in the same line and column. -/
theorem nodup_places (hs : TokenStream.ofText source = .ok s) :
    (s.marks.map fun mark => mark.position.place).Nodup := by
  rw [List.Nodup, List.pairwise_map]
  exact (pairwise_before_marks hs).imp fun h => h.place_ne

theorem isWritable_of_mem_marks (hs : TokenStream.ofText source = .ok s) {mark : Mark}
    (hmark : mark ∈ s.marks) : ∀ kind ∈ mark.kind, kind.isWritable = true := by
  intro kind hkind
  obtain ⟨_, rest, _, hcut⟩ := exists_cut_of_ofText hs
  rcases List.mem_append.mp hmark with hmark | hmark
  · obtain ⟨t, ht, rfl⟩ := List.mem_map.mp hmark
    obtain rfl := Option.mem_some.mp hkind
    exact List.all_eq_true.mp hcut.areWritable _ (List.mem_map_of_mem ht)
  · obtain rfl := List.mem_singleton.mp hmark
    cases hkind

/-! ## Descriptions -/

namespace TokenKind

/-- Tokens are told apart by how they are written. -/
theorem spelling_injective {a b : TokenKind} (ha : a.isWritable = true) (hb : b.isWritable = true)
    (h : a.spelling = b.spelling) : a = b := by
  obtain ⟨c, cs, hspelling, _, hscan⟩ := @scan_spelling [] a ha (by simp)
  obtain ⟨d, ds, hspelling', _, hscan'⟩ := @scan_spelling [] b hb (by simp)
  rw [h, hspelling', List.cons.injEq] at hspelling
  obtain ⟨rfl, rfl⟩ := hspelling
  rw [hscan', Except.ok.injEq, Piece.mk.injEq, Option.some.injEq] at hscan
  exact hscan.1.symm

/-- The words of a description before and behind the spelling. -/
def frame : TokenKind → List Char × List Char
  | .text _ => (['s', 't', 'r', 'i', 'n', 'g', ' '], [])
  | .number _ => (['n', 'u', 'm', 'b', 'e', 'r', ' '], [])
  | .ident _ | .punct _ | .ellipsis => (['\''], ['\''])

theorem toList_describeToken (kind : TokenKind) :
    (describeToken (some kind)).toList = kind.frame.1 ++ kind.spelling ++ kind.frame.2 := by
  cases kind <;> simp [describeToken, frame, spelling]

/-- The first letter of a description tells its words. -/
theorem frame_eq_of_head? {a b : TokenKind} (h : a.frame.1.head? = b.frame.1.head?) :
    a.frame = b.frame := by
  revert h
  cases a <;> cases b <;> simp [frame]

theorem head?_describeToken (kind : TokenKind) :
    (describeToken (some kind)).toList.head? = kind.frame.1.head? := by
  rw [toList_describeToken]
  cases kind <;> rfl

end TokenKind

/-- Tokens of a text that are described by the same words are the same. -/
theorem describeToken_injective {a b : Option TokenKind} (ha : ∀ kind ∈ a, kind.isWritable = true)
    (hb : ∀ kind ∈ b, kind.isWritable = true) (h : describeToken a = describeToken b) : a = b := by
  have hend : ∀ kind, describeToken (some kind) ≠ describeToken none := by
    intro kind heq
    have hhead := kind.head?_describeToken
    rw [heq] at hhead
    cases kind <;> simp [TokenKind.frame, describeToken] at hhead
  cases a with
  | none =>
      cases b with
      | none => rfl
      | some b => exact absurd h.symm (hend b)
  | some a =>
      cases b with
      | none => exact absurd h (hend a)
      | some b =>
          have hframe : a.frame = b.frame := by
            apply TokenKind.frame_eq_of_head?
            rw [← a.head?_describeToken, h, b.head?_describeToken]
          have hlist := a.toList_describeToken
          rw [h, b.toList_describeToken, hframe, List.append_left_inj, List.append_right_inj]
            at hlist
          rw [TokenKind.spelling_injective (ha a rfl) (hb b rfl) hlist.symm]

end IdlBindings
