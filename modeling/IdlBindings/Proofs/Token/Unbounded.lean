import IdlBindings.Proofs.Token.Progress

/-!
# Loops without a bound

The loops of the grammar carry a bound, so that they end whatever they do. What they do is a matter
of their rounds, and here a loop goes on for as long as these say: it is the least solution of its
equation, with no result if there is no last round.

A loop comes to an end if every round does and no round that is followed by another leaves the
tokens as they are. A bound that is at least the number of tokens then never stops it, so it is the
loop with the bound. A loop whose rounds always go on has no result; at the end of the input, where
reading a token changes nothing, that is the danger.

## Main definitions

* `OpenParser`: a parser that may run forever
* `OpenParser.loop`: rounds until one is the last
* `OpenParser.Advances`: every round takes a token, fails or is the last
* `OpenParser.EndsUpTo`: a parser with bounds does the same on streams that are short enough
-/
namespace IdlBindings

open IdlBindings.Parser

/-- A parser without bounds, which gives none if it runs forever. -/
abbrev OpenParser := StateT TokenStream (ExceptT SyntaxError Option)

variable {α β σ : Type}

/-- The rounds of a loop, from a state on and with no bound on their number. A round gives a value
and the state for the next one, or none if there is no next one. -/
def TokenStream.rounds (step : α → β → β) (last : β) (round : σ → OpenParser (Option (α × σ)))
    (state : σ) (s : TokenStream) : Option (Except SyntaxError (β × TokenStream)) := do
  match ← round state s with
  | .ok (some (a, next), rest) =>
      let result ← rest |>.rounds step last round next
      return result.map fun r => (step a r.1, r.2)
  | .ok (none, rest) => return .ok (last, rest)
  | .error e => return .error e
partial_fixpoint

namespace OpenParser

/-- A parser with bounds, which always comes to an end. -/
def ofParser (p : Parser α) : OpenParser α := fun s => some (p s)

instance : MonadLift Parser OpenParser := ⟨ofParser⟩

@[simp] theorem liftM_eq (p : Parser α) : (liftM p : OpenParser α) = ofParser p := rfl

@[simp] theorem ofParser_pure (a : α) : ofParser (pure a) = pure a := rfl

theorem run_bind (r : OpenParser α) (f : α → OpenParser β) (s : TokenStream) :
    (r >>= f) s = match r s with
      | some (.ok (a, rest)) => f a rest
      | some (.error e) => some (.error e)
      | none => none := by
  show ExceptT.bind (r s) (fun result => f result.1 result.2) = _
  match r s with
  | some (.ok _) | some (.error _) | none => rfl

@[simp] theorem ofParser_bind (p : Parser α) (f : α → Parser β) :
    ofParser (p >>= f) = ofParser p >>= fun a => ofParser (f a) := by
  funext s
  rw [run_bind, ofParser, ofParser, Parser.run_bind]
  cases p s <;> rfl

@[simp] theorem ofParser_ite (c : Prop) [Decidable c] (p q : Parser α) :
    ofParser (if c then p else q) = if c then ofParser p else ofParser q :=
  apply_ite ofParser c p q

@[simp] theorem ofParser_map (f : α → β) (p : Parser α) :
    ofParser (f <$> p) = f <$> ofParser p := by
  rw [← bind_pure_comp, ← bind_pure_comp, ofParser_bind]
  rfl

/-! ## Loops -/

/-- Rounds until one is the last, with their values put together from the last to the first. -/
def loop (step : α → β → β) (last : β) (round : σ → OpenParser (Option (α × σ))) (state : σ) :
    OpenParser β :=
  TokenStream.rounds step last round state

/-- Every round comes to an end, and takes a token if it is not the last. -/
def Advances (round : σ → OpenParser (Option (α × σ))) : Prop :=
  ∀ state s, ∃ result, round state s = some result ∧
    ∀ a next rest, result = .ok (some (a, next), rest) → rest.ReadFrom s

variable {step : α → β → β} {last : β} {round : σ → OpenParser (Option (α × σ))} {state : σ}
  {s rest : TokenStream}

theorem loop_of_error {e : SyntaxError} (h : round state s = some (.error e)) :
    loop step last round state s = some (.error e) := by
  rw [loop, TokenStream.rounds, h]
  rfl

theorem loop_of_last (h : round state s = some (.ok (none, rest))) :
    loop step last round state s = some (.ok (last, rest)) := by
  rw [loop, TokenStream.rounds, h]
  rfl

theorem loop_of_next {a : α} {next : σ} {result : Except SyntaxError (β × TokenStream)}
    (h : round state s = some (.ok (some (a, next), rest)))
    (hrest : loop step last round next rest = some result) :
    loop step last round state s = some (result.map fun r => (step a r.1, r.2)) := by
  rw [loop] at hrest
  rw [loop, TokenStream.rounds, h, Option.bind_eq_bind, Option.bind_some]
  exact Option.bind_eq_some_iff.mpr ⟨result, hrest, rfl⟩

/-- Rounds that are parsers with bounds. -/
theorem Advances.of_closed (closed : σ → Parser (Option (α × σ)))
    (hround : ∀ state, round state = ofParser (closed state))
    (hclosed : ∀ state, ProgressesOrEnds (closed state)) : Advances round := by
  intro state s
  refine ⟨closed state s, congrFun (hround state) s, ?_⟩
  exact fun a next rest hrun => hclosed state s (a, next) rest hrun

/-- A loop whose rounds always go on has no result. -/
theorem loop_eq_none
    (h : ∀ state s, ∃ a next rest, round state s = some (.ok (some (a, next), rest)))
    (state : σ) (s : TokenStream) : loop step last round state s = none := by
  rw [Option.eq_none_iff_forall_ne_some]
  intro result hresult
  refine TokenStream.rounds.partial_correctness step last round (fun _ _ _ => False) ?_ state s
    result hresult
  intro again ih state s result hagain
  obtain ⟨a, next, rest, hround⟩ := h state s
  obtain ⟨_, hsame, hagain⟩ := Option.bind_eq_some_iff.mp hagain
  cases hround.symm.trans hsame
  obtain ⟨result', hrest, _⟩ := Option.bind_eq_some_iff.mp hagain
  exact ih next rest result' hrest

/-! ## Parsers that do the same -/

/-- On streams of at most `k` tokens, the parser comes to an end with the result of `p`. -/
def EndsUpTo (k : Nat) (r : OpenParser α) (p : Parser α) : Prop :=
  ∀ s : TokenStream, s.tokens.length ≤ k → r s = some (p s)

theorem eq_ofParser {r : OpenParser α} {p : Parser α} (h : ∀ k, EndsUpTo k r p) :
    r = ofParser p := by
  funext s
  exact h s.tokens.length s (Nat.le_refl _)

namespace EndsUpTo

variable {r r' : OpenParser α} {p q : Parser α} {f : α → OpenParser β} {g : α → Parser β} {k : Nat}
  {kind : TokenKind}

theorem refl (k : Nat) (p : Parser α) : EndsUpTo k (ofParser p) p := fun _ _ => rfl

theorem bind (hp : EndsUpTo k r p) (hlength : Predictive p) (hf : ∀ a, EndsUpTo k (f a) (g a)) :
    EndsUpTo k (r >>= f) (p >>= g) := by
  intro s hs
  rw [run_bind, hp s hs, Parser.run_bind]
  cases hrun : p s with
  | error e => rfl
  | ok result => exact hf result.1 result.2 (Nat.le_trans (hlength.length_le hrun) hs)

/-- A token that is there leaves one token less for what follows. -/
theorem eat_ite {yes no : OpenParser α} {yes' no' : Parser α} (hyes : EndsUpTo k yes yes')
    (hno : EndsUpTo (k + 1) no no') :
    EndsUpTo (k + 1) (ofParser (eat kind) >>= fun found => if found = true then yes else no)
      (eat kind >>= fun found => if found = true then yes' else no') := by
  intro s hs
  rw [run_bind, ofParser, Parser.run_bind, run_eat]
  by_cases hpeek : s.peek = some kind
  · rw [if_pos hpeek]
    have hdrop := Located.length_drop_lt hpeek
    exact hyes s.drop (by omega)
  · rw [if_neg hpeek]
    exact hno s hs

end EndsUpTo

/-- One round, and then whatever `again` does with the state for the next one. -/
def unrolled (step : α → β → β) (last : β) (round : σ → OpenParser (Option (α × σ)))
    (again : σ → Parser β) (state : σ) : OpenParser β := do
  match ← round state with
  | some (a, next) => return step a (← again next)
  | none => return last

/-- A loop that advances comes to an end. A loop with a bound which does the same rounds, and which
at the end of the input does not need the bound, has the same result if the bound is at least the
number of tokens. -/
theorem Advances.endsUpTo_loop (h : Advances round) (bounded : Nat → σ → Parser β)
    (hend : ∀ state, AgreeUpTo 0 (bounded 1 state) (bounded 0 state))
    (hnext : ∀ n state, unrolled step last round (bounded n) state =
      ofParser (bounded (n + 1) state)) (n : Nat) (state : σ) :
    EndsUpTo n (loop step last round state) (bounded n state) := by
  -- What is left for the rounds behind the first is a matter of the induction.
  have hunroll : ∀ n state (s : TokenStream), (∀ next (rest : TokenStream),
      rest.tokens.length < s.tokens.length →
        loop step last round next rest = some (bounded n next rest)) →
      loop step last round state s = some (bounded (n + 1) state s) := by
    intro n state s hrest
    show _ = ofParser (bounded (n + 1) state) s
    rw [← hnext]
    obtain ⟨result, hround, htakes⟩ := h state s
    rw [unrolled, run_bind, hround]
    match result with
    | .error e => exact loop_of_error hround
    | .ok (none, rest) => exact loop_of_last hround
    | .ok (some (a, next), rest) =>
        rw [loop_of_next hround (hrest next rest (htakes a next rest rfl).shorter)]
        show _ = (ofParser (bounded n next) >>= fun b => pure (step a b) : OpenParser β) rest
        rw [run_bind, ofParser]
        cases bounded n next rest <;> rfl
  induction n generalizing state with
  | zero =>
      intro s hs
      rw [← hend state s hs]
      exact hunroll 0 state s fun next rest hlt => by omega
  | succ n ih =>
      intro s hs
      exact hunroll n state s fun next rest hlt => ih next rest (by omega)

/-- A loop that advances does the same as a parser that does one round and then itself. -/
theorem Advances.loop_eq (h : Advances round) (closed : σ → Parser β)
    (hclosed : ∀ state, unrolled step last round closed state = ofParser (closed state))
    (state : σ) : loop step last round state = ofParser (closed state) := by
  exact eq_ofParser fun k =>
    h.endsUpTo_loop (fun _ => closed) (fun _ => .rfl) (fun _ => hclosed) k state

end OpenParser
end IdlBindings
