import IdlBindings.Token.Parser

/-!
# Where parsers fail

Most faults are about a token that was found where another was expected. Some parsers look at the
token and fail before they read it; others read it first and fail then. Either way the error is
shown at the token that is next when it is raised, so the place is that of the token it names in the
first case and of the one behind in the second. At the end of the input nothing is read, and there
is no difference.

A run of a parser is accounted for if it leaves a part of its tokens or fails at one of them in one
of these two ways. Sequences and loops of parsers are, if their parts are.

## Main definitions

* `SyntaxFault.found?`, `SyntaxFault.isLate`: the token that a fault names, and whether it is read
* `SyntaxError.RaisedAt`: an error is raised where a stream starts
* `Located`: what a parser comes to is accounted for
-/
namespace IdlBindings

/-! ## Faults -/

namespace SyntaxFault

/-- The token that a fault says was found, which is none at the end of the input. -/
def found? : SyntaxFault → Option (Option TokenKind)
  | expectedPunct _ found | expectedIdentifier found | expectedDefinition found
  | expectedType found | expectedEnumValue found | expectedDefault found => some found
  | _ => none

/-- The fault is raised when the token that it names is already read. -/
def isLate : SyntaxFault → Bool
  | expectedType _ | expectedEnumValue _ | expectedDefault _ => true
  | _ => false

/-- The messages of the faults that name a token. -/
theorem message_of_found? {fault : SyntaxFault} {found : Option TokenKind}
    (h : fault.found? = some found) :
    ∃ what, fault.message = "expected " ++ what ++ ", found " ++ describeToken found := by
  have hword : ∀ what text : String, text = "expected " ++ what ++ ", found " →
      fault.message = text ++ describeToken found →
      ∃ what, fault.message = "expected " ++ what ++ ", found " ++ describeToken found :=
    fun what text htext hmessage => ⟨what, by rw [hmessage, htext]⟩
  cases fault with
  | expectedPunct mark =>
      cases h
      refine ⟨"'" ++ mark.toChar.toString ++ "'", ?_⟩
      show "expected '" ++ mark.toChar.toString ++ "', found " ++ describeToken found = _
      simp [← String.toList_inj]
  | expectedIdentifier => cases h; exact hword "identifier" _ (by decide) rfl
  | expectedDefinition => cases h; exact hword "a definition" _ (by decide) rfl
  | expectedType => cases h; exact hword "type" _ (by decide) rfl
  | expectedEnumValue => cases h; exact hword "enum value string" _ (by decide) rfl
  | expectedDefault => cases h; exact hword "default value" _ (by decide) rfl
  | _ => cases h

end SyntaxFault

/-- The error names the first token of the stream, and is shown there, or at the token behind it if
that one is read. -/
def SyntaxError.RaisedAt (e : SyntaxError) (s : TokenStream) : Prop :=
  ∀ found, e.fault.found? = some found →
    found = s.peek ∧ e.position = (if e.fault.isLate then s.drop else s).position

/-- What is left of a stream when some of its tokens are read. -/
structure TokenStream.LeftOf (rest s : TokenStream) : Prop where
  suffix : rest.tokens <:+ s.tokens
  stop : rest.stop = s.stop

namespace TokenStream.LeftOf

variable {s s' rest : TokenStream}

theorem refl (s : TokenStream) : s.LeftOf s := ⟨List.suffix_refl _, rfl⟩

theorem trans (h : rest.LeftOf s') (h' : s'.LeftOf s) : rest.LeftOf s :=
  ⟨h.suffix.trans h'.suffix, h.stop.trans h'.stop⟩

theorem drop (s : TokenStream) : s.drop.LeftOf s := ⟨List.tail_suffix _, rfl⟩

theorem length_le (h : rest.LeftOf s) : rest.tokens.length ≤ s.tokens.length := h.suffix.length_le

end TokenStream.LeftOf

/-- What a parser comes to on a stream: it leaves a part of the stream, or its error is raised at
such a part. -/
def Located {α : Type} (s : TokenStream) : Except SyntaxError (α × TokenStream) → Prop
  | .ok (_, rest) => rest.LeftOf s
  | .error e => ∃ rest : TokenStream, rest.LeftOf s ∧ e.RaisedAt rest

namespace Located

open IdlBindings.Parser

variable {α β : Type} {p : Parser α} {f : α → Parser β} {s rest : TokenStream}
  {fault : SyntaxFault} {kind : TokenKind} {n : Nat}

/-! ## Sequencing -/

/-- A part of a part is a part. -/
theorem of_leftOf {result : Except SyntaxError (α × TokenStream)} (h : Located rest result)
    (hrest : rest.LeftOf s) : Located s result := by
  match result, h with
  | .ok (_, left), h => exact h.trans hrest
  | .error e, ⟨left, hleft, he⟩ => exact ⟨left, hleft.trans hrest, he⟩

theorem pure (a : α) (s : TokenStream) : Located s ((pure a : Parser α) s) := .refl s

theorem bind (hp : Located s (p s))
    (hf : ∀ a rest, p s = .ok (a, rest) → rest.LeftOf s → Located rest (f a rest)) :
    Located s ((p >>= f) s) := by
  rw [run_bind]
  match hrun : p s with
  | .ok (a, rest) =>
      rw [hrun] at hp
      exact (hf a rest hrun hp).of_leftOf hp
  | .error e =>
      rw [hrun] at hp
      exact hp

theorem map {g : α → β} (hp : Located s (p s)) : Located s ((g <$> p) s) := by
  rw [← bind_pure_comp]
  exact hp.bind fun a rest _ _ => pure (g a) rest

/-! ## Primitives -/

theorem advance (s : TokenStream) : Located s (advance s) := .drop s

/-- A fault that names no token may be raised anywhere. -/
theorem fail_of_none (h : fault.found? = none) (s : TokenStream) :
    Located s ((fail fault : Parser α) s) := by
  refine ⟨s, .refl s, fun found hfound => ?_⟩
  rw [h] at hfound
  cases hfound

/-- A fault that names the next token, which is not read. -/
theorem fail_next (hfound : fault.found? = some s.peek) (hlate : fault.isLate = false) :
    Located s ((fail fault : Parser α) s) := by
  refine ⟨s, .refl s, fun found hfound' => ?_⟩
  rw [hfound, Option.some.injEq] at hfound'
  rw [hlate]
  exact ⟨hfound'.symm, rfl⟩

/-- A fault that names the token that was read last. -/
theorem fail_read (hfound : fault.found? = some s.peek) (hlate : fault.isLate = true) :
    Located s ((fail fault : Parser α) s.drop) := by
  refine ⟨s, .refl s, fun found hfound' => ?_⟩
  rw [hfound, Option.some.injEq] at hfound'
  rw [hlate]
  exact ⟨hfound'.symm, rfl⟩

/-- At the end of the input there is nothing to read. -/
theorem fail_end (hs : s.tokens.length ≤ 0) (hfound : fault.found? = some s.peek)
    (hlate : fault.isLate = true) : Located s ((fail fault : Parser α) s) := by
  have hdrop : s.drop = s := by
    obtain ⟨tokens, stop⟩ := s
    obtain rfl := List.length_eq_zero_iff.mp (Nat.le_zero.mp hs)
    rfl
  have hread := @fail_read α s fault hfound hlate
  rwa [hdrop] at hread

theorem length_drop_lt (h : s.peek = some kind) : s.drop.tokens.length < s.tokens.length := by
  obtain ⟨tokens, stop⟩ := s
  cases tokens with
  | nil => cases h
  | cons t ts => exact Nat.lt_succ_self _

theorem eat (kind : TokenKind) (s : TokenStream) : Located s (eat kind s) := by
  rw [run_eat]
  split
  · exact .drop s
  · exact .refl s

/-- A token that is read if it is there, before one thing or another. -/
theorem eat_bind {yes no : Parser α}
    (hyes : ∀ rest, rest.LeftOf s → rest.tokens.length < s.tokens.length → Located rest (yes rest))
    (hno : Located s (no s)) :
    Located s ((Parser.eat kind >>= fun found => if found = true then yes else no) s) := by
  rw [run_bind, run_eat]
  by_cases hpeek : s.peek = some kind
  · rw [if_pos hpeek]
    exact (hyes s.drop (.drop s) (length_drop_lt hpeek)).of_leftOf (.drop s)
  · rw [if_neg hpeek]
    exact hno

/-- Looking at the next token. -/
theorem peek_bind {g : Option TokenKind → Parser α} (h : Located s (g s.peek s)) :
    Located s ((Parser.peek >>= g) s) := h

/-- Reading the next token. -/
theorem advance_bind {g : Option TokenKind → Parser α} (h : Located s (g s.peek s.drop)) :
    Located s ((Parser.advance >>= g) s) := h

/-- Counting the tokens. -/
theorem remaining_bind {g : Nat → Parser α} (h : Located s (g s.tokens.length s)) :
    Located s ((Parser.remaining >>= g) s) := h

theorem expectPunct (mark : Punct) (s : TokenStream) : Located s (expectPunct mark s) :=
  eat_bind (fun rest _ _ => pure () rest) (peek_bind (fail_next rfl rfl))

theorem expectIdent (s : TokenStream) : Located s (expectIdent s) := by
  rw [Parser.expectIdent]
  apply peek_bind
  cases hpeek : s.peek with
  | none => exact fail_next (by rw [hpeek]; rfl) rfl
  | some kind =>
      cases kind with
      | ident name => exact (advance s).bind fun _ rest _ _ => pure _ rest
      | _ => exact fail_next (by rw [hpeek]; rfl) rfl

/-! ## Loops -/

theorem commaSeparated (hp : ∀ s, Located s (p s)) (n : Nat) (s : TokenStream) :
    Located s (commaSeparated p n s) := by
  induction n generalizing s with
  | zero => exact (hp s).bind fun _ rest _ _ => pure _ rest
  | succ n ih =>
      refine (hp s).bind fun _ rest _ _ => eat_bind (fun left _ _ => ?_) (pure _ rest)
      exact (ih left).bind fun _ last _ _ => pure _ last

theorem untilBrace {item : Parser (Option α)} (hitem : ∀ s, Located s (item s)) (n : Nat)
    (s : TokenStream) : Located s (untilBrace item n s) := by
  induction n generalizing s with
  | zero => exact (hitem s).bind fun _ rest _ _ => pure _ rest
  | succ n ih =>
      refine eat_bind (fun rest _ _ => pure _ rest) ?_
      exact (hitem s).bind fun _ rest _ _ => (ih rest).bind fun _ left _ _ => pure _ left

end Located
end IdlBindings
