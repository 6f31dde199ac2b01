import IdlBindings.Proofs.Token.Blame
import IdlBindings.Proofs.Token.Lookahead

/-!
# Parsers that take a token

A parser moves on in its stream and never past the end. Most parsers of the grammar take at least
one token or fail, since they need a word or a mark; so at the end of the input they fail. It is
enough if one part of a sequence takes a token and the others stay within the stream.

## Main definitions

* `TokenStream.ReadFrom`: what is left when a token is read
* `Parser.StaysWithin`: a parser that does not move past the end
* `Parser.Progresses`: a parser that takes a token or fails
* `Parser.ProgressesOrEnds`: a parser that takes a token or fails unless it gives none
-/
namespace IdlBindings

/-- What is left of a stream when at least one of its tokens is read. -/
structure TokenStream.ReadFrom (rest s : TokenStream) : Prop extends rest.LeftOf s where
  shorter : rest.tokens.length < s.tokens.length

theorem TokenStream.ReadFrom.cons (t : Token) (ts : List Token) (stop : Position) :
    TokenStream.ReadFrom ⟨ts, stop⟩ ⟨t :: ts, stop⟩ :=
  ⟨.drop ⟨t :: ts, stop⟩, Nat.lt_succ_self _⟩

namespace Parser

variable {α β : Type} {p : Parser α} {f : α → Parser β} {mark : Punct}

/-- A run leaves a part of its stream, so it never moves past the end of the input. -/
def StaysWithin (p : Parser α) : Prop := ∀ s a rest, p s = .ok (a, rest) → rest.LeftOf s

/-- A run takes at least one token, or fails. -/
def Progresses (p : Parser α) : Prop := ∀ s a rest, p s = .ok (a, rest) → rest.ReadFrom s

/-- A run that gives a value takes at least one token. One that gives none need not. -/
def ProgressesOrEnds (p : Parser (Option α)) : Prop :=
  ∀ s a rest, p s = .ok (some a, rest) → rest.ReadFrom s

namespace StaysWithin

theorem of_located (hp : ∀ s, Located s (p s)) : StaysWithin p := by
  intro s a rest hrun
  have hlocated := hp s
  rwa [hrun] at hlocated

theorem pure (a : α) : StaysWithin (pure a) := .of_located (Located.pure a)

theorem fail (fault : SyntaxFault) : StaysWithin (fail fault : Parser α) := by
  intro s a rest hrun
  cases hrun

theorem bind (hp : StaysWithin p) (hf : ∀ a, StaysWithin (f a)) : StaysWithin (p >>= f) := by
  intro s b rest hrun
  obtain ⟨a, s', hps, hfs⟩ := run_bind_eq_ok_iff.mp hrun
  exact (hf a s' b rest hfs).trans (hp s a s' hps)

end StaysWithin

namespace Progresses

theorem staysWithin (hp : Progresses p) : StaysWithin p := fun s a rest hrun =>
  (hp s a rest hrun).toLeftOf

theorem of_delimited (hp : Delimited p) (hstays : StaysWithin p) : Progresses p := by
  intro s a rest hrun
  obtain ⟨taken, hne, hkinds, _⟩ := hp s a rest hrun
  have hlength := congrArg List.length hkinds
  have hpos := List.length_pos_iff.mpr hne
  rw [List.length_append, length_kinds, length_kinds] at hlength
  exact ⟨hstays s a rest hrun, by omega⟩

/-- The first parser takes a token. -/
theorem bind (hp : Progresses p) (hf : ∀ a, StaysWithin (f a)) : Progresses (p >>= f) := by
  intro s b rest hrun
  obtain ⟨a, s', hps, hfs⟩ := run_bind_eq_ok_iff.mp hrun
  have hfirst := hp s a s' hps
  have hleft := hf a s' b rest hfs
  exact ⟨hleft.trans hfirst.toLeftOf, Nat.lt_of_le_of_lt hleft.length_le hfirst.shorter⟩

/-- What follows takes a token. -/
theorem after (hp : StaysWithin p) (hf : ∀ a, Progresses (f a)) : Progresses (p >>= f) := by
  intro s b rest hrun
  obtain ⟨a, s', hps, hfs⟩ := run_bind_eq_ok_iff.mp hrun
  have hleft := hp s a s' hps
  have hlast := hf a s' b rest hfs
  exact ⟨hlast.toLeftOf.trans hleft, Nat.lt_of_lt_of_le hlast.shorter hleft.length_le⟩

theorem map {g : α → β} (hp : Progresses p) : Progresses (g <$> p) := by
  rw [← bind_pure_comp]
  exact hp.bind fun a => .pure (g a)

/-- Reading a token, where what follows fails if there is none. -/
theorem advance_bind {f : Option TokenKind → Parser β} (hend : ∀ s b rest, f none s ≠ .ok (b, rest))
    (hf : ∀ kind, StaysWithin (f (some kind))) : Progresses (advance >>= f) := by
  intro s b rest hrun
  replace hrun : f s.peek s.drop = .ok (b, rest) := hrun
  cases hpeek : s.peek with
  | none =>
      rw [hpeek] at hrun
      exact absurd hrun (hend s.drop b rest)
  | some kind =>
      rw [hpeek] at hrun
      have hleft := hf kind s.drop b rest hrun
      exact ⟨hleft.trans (.drop s),
        Nat.lt_of_le_of_lt hleft.length_le (Located.length_drop_lt hpeek)⟩

theorem expectPunct : Progresses (expectPunct mark) :=
  .of_delimited .expectPunct (.of_located (Located.expectPunct mark))

theorem expectIdent : Progresses expectIdent :=
  .of_delimited .expectIdent (.of_located Located.expectIdent)

/-- At the end of the input there is no token to take. -/
theorem exists_error (hp : Progresses p) {s : TokenStream} (hs : s.tokens.length ≤ 0) :
    ∃ e, p s = .error e := by
  match hrun : p s with
  | .error e => exact ⟨e, rfl⟩
  | .ok (a, rest) =>
      have hshorter := (hp s a rest hrun).shorter
      omega

end Progresses

namespace ProgressesOrEnds

theorem of_progresses {p : Parser (Option α)} (hp : Progresses p) : ProgressesOrEnds p :=
  fun s a rest hrun => hp s (some a) rest hrun

theorem none : ProgressesOrEnds (pure none : Parser (Option α)) := by
  intro s a rest hrun
  cases hrun

theorem after {f : α → Parser (Option β)} (hp : StaysWithin p)
    (hf : ∀ a, ProgressesOrEnds (f a)) : ProgressesOrEnds (p >>= f) := by
  intro s b rest hrun
  obtain ⟨a, s', hps, hfs⟩ := run_bind_eq_ok_iff.mp hrun
  have hleft := hp s a s' hps
  have hlast := hf a s' b rest hfs
  exact ⟨hlast.toLeftOf.trans hleft, Nat.lt_of_lt_of_le hlast.shorter hleft.length_le⟩

end ProgressesOrEnds
end Parser

end IdlBindings
