import IdlBindings.Proofs.Token.Layout
import IdlBindings.Token.Parser

/-!
# What parsers read

A parser reads tokens off the front of a stream. What it reads does not depend on where the tokens
stand, so its behaviour on good input is a relation between the kinds of the tokens before and after
it and the result. The relation is closed under sequencing, and the two loops of the grammar read a
list of items if one round reads an item.

## Main definitions

* `Parser.Reads`: what a parser reads and gives
-/
namespace IdlBindings.Parser

/-- On tokens of the kinds `before` the parser gives `a` and leaves tokens of the kinds `after`. -/
def Reads {α : Type} (p : Parser α) (before : List TokenKind) (a : α) (after : List TokenKind) :
    Prop :=
  ∀ s : TokenStream, s.kinds = before → ∃ s', p s = .ok (a, s') ∧ s'.kinds = after

/-- Every list of kinds is that of some stream. -/
theorem exists_kinds_eq (kinds : List TokenKind) : ∃ s : TokenStream, s.kinds = kinds :=
  ⟨⟨kinds.map fun kind => ⟨kind, .start⟩, .start⟩, by simp [TokenStream.kinds, Function.comp_def]⟩

/-- The name that a word declares. Underscores in front only escape it. -/
def declaredName (word : String) : String := String.ofList (word.toList.dropWhile (· == '_'))

/-- A sequence gives a result exactly if both its parts do. -/
theorem run_bind_eq_ok_iff {α β : Type} {p : Parser α} {f : α → Parser β} {s s'' : TokenStream}
    {b : β} :
    (p >>= f) s = .ok (b, s'') ↔ ∃ a s', p s = .ok (a, s') ∧ f a s' = .ok (b, s'') := by
  rw [run_bind]
  cases hps : p s with
  | error e => simp
  | ok result => simp [Prod.ext_iff, and_assoc]

variable {α β γ : Type} {p : Parser α} {f : α → Parser β} {a : α} {b : β}
  {kind : TokenKind} {before between after kinds rest : List TokenKind}

namespace Reads

/-! ## Sequencing -/

theorem pure (a : α) (kinds : List TokenKind) : Reads (pure a) kinds a kinds :=
  fun s hs => ⟨s, rfl, hs⟩

theorem bind (hp : Reads p before a between) (hf : Reads (f a) between b after) :
    Reads (p >>= f) before b after := by
  intro s hs
  obtain ⟨s', hps, hs'⟩ := hp s hs
  obtain ⟨s'', hfs, hs''⟩ := hf s' hs'
  exact ⟨s'', by rw [run_bind, hps]; exact hfs, hs''⟩

/-- A parser reads tokens in one way. -/
theorem unique {a' : α} {after' : List TokenKind} (h : Reads p before a after)
    (h' : Reads p before a' after') : a = a' ∧ after = after' := by
  obtain ⟨s, hs⟩ := exists_kinds_eq before
  obtain ⟨t, hrun, rfl⟩ := h s hs
  obtain ⟨t', hrun', rfl⟩ := h' s hs
  obtain ⟨rfl, rfl⟩ := Prod.mk.inj (Except.ok.inj (hrun.symm.trans hrun'))
  exact ⟨rfl, rfl⟩

theorem map {g : α → β} (hp : Reads p before a after) : Reads (g <$> p) before (g a) after := by
  rw [← bind_pure_comp]
  exact hp.bind (pure (g a) after)

/-! ## Primitives -/

theorem head?_kinds (s : TokenStream) : s.peek = s.kinds.head? := by
  simp [TokenStream.peek, TokenStream.kinds]

theorem kinds_drop (s : TokenStream) : s.drop.kinds = s.kinds.tail := by
  simp [TokenStream.drop, TokenStream.kinds]

theorem kinds_of_peek {s : TokenStream} (hs : s.peek = some kind) :
    s.kinds = kind :: s.drop.kinds := by
  rw [head?_kinds, List.head?_eq_some_iff] at hs
  obtain ⟨rest, hkinds⟩ := hs
  rw [kinds_drop, hkinds]
  rfl

theorem peek (kinds : List TokenKind) : Reads peek kinds kinds.head? kinds :=
  fun s hs => ⟨s, by rw [run_peek, head?_kinds, hs], hs⟩

theorem advance (kind : TokenKind) (rest : List TokenKind) :
    Reads advance (kind :: rest) (some kind) rest :=
  fun s hs => ⟨s.drop, by rw [run_advance, head?_kinds, hs]; rfl, by rw [kinds_drop, hs]; rfl⟩

theorem remaining (kinds : List TokenKind) : Reads remaining kinds kinds.length kinds :=
  fun s hs => ⟨s, by rw [run_remaining, ← hs, TokenStream.kinds, List.length_map], hs⟩

theorem eat_head (kind : TokenKind) (rest : List TokenKind) :
    Reads (eat kind) (kind :: rest) true rest := by
  intro s hs
  refine ⟨s.drop, ?_, by rw [kinds_drop, hs]; rfl⟩
  rw [run_eat, if_pos (by rw [head?_kinds, hs]; rfl)]

theorem eat_other (hne : kinds.head? ≠ some kind) : Reads (eat kind) kinds false kinds := by
  intro s hs
  refine ⟨s, ?_, hs⟩
  rw [run_eat, if_neg (by rwa [head?_kinds, hs])]

/-- The branch for a token that is there. -/
theorem eat_then {yes no : Parser α} (hyes : Reads yes rest a after) :
    Reads (eat kind >>= fun found => if found = true then yes else no) (kind :: rest) a after :=
  (eat_head kind rest).bind (by simpa using hyes)

/-- The branch for a token that is not there. -/
theorem eat_else {yes no : Parser α} (hne : kinds.head? ≠ some kind)
    (hno : Reads no kinds a after) :
    Reads (eat kind >>= fun found => if found = true then yes else no) kinds a after :=
  (eat_other hne).bind (by simpa using hno)

/-- Where a token is there, only its branch is read. -/
theorem of_eat_then {yes no : Parser α}
    (h : Reads (eat kind >>= fun found => if found = true then yes else no) (kind :: rest) a
      after) : Reads yes rest a after := by
  intro s hs
  let s₀ : TokenStream := ⟨⟨kind, .start⟩ :: s.tokens, s.stop⟩
  have hs₀ : s₀.kinds = kind :: rest := by rw [← hs]; rfl
  obtain ⟨s', hrun, hs'⟩ := h s₀ hs₀
  refine ⟨s', ?_, hs'⟩
  rw [run_bind, run_eat, if_pos (by rw [head?_kinds, hs₀]; rfl)] at hrun
  exact hrun

theorem expectPunct (mark : Punct) (rest : List TokenKind) :
    Reads (expectPunct mark) (.punct mark :: rest) () rest :=
  (eat_head (.punct mark) rest).bind (pure () rest)

theorem expectIdent (name : String) (rest : List TokenKind) :
    Reads expectIdent (.ident name :: rest) (declaredName name) rest :=
  (peek _).bind ((advance _ rest).bind (pure _ rest))

/-! ## Loops -/

/-- A list has no more items than tokens, so the number of tokens bounds every loop over items. -/
theorem length_le_length_flatMap {tokens : β → List TokenKind} (htokens : ∀ x, tokens x ≠ [])
    (xs : List β) : xs.length ≤ (xs.flatMap tokens).length := by
  induction xs with
  | nil => exact Nat.le_refl 0
  | cons x xs ih =>
      have hx := List.length_pos_iff.mpr (htokens x)
      rw [List.flatMap_cons, List.length_append, List.length_cons]
      omega

/-- Items with commas between them, up to a token that is no comma. -/
theorem commaSeparated {item : Parser α} {tokens : β → List TokenKind} {value : β → α}
    {stop : TokenKind} (hstop : stop ≠ .punct .comma)
    (hitem : ∀ x kind rest, kind = .punct .comma ∨ kind = stop →
      Reads item (tokens x ++ kind :: rest) (value x) (kind :: rest))
    (xs : List β) {n : Nat} (hn : xs.length ≤ n) (x : β) (rest : List TokenKind) :
    Reads (commaSeparated item n)
      (tokens x ++ ((xs.flatMap fun y => .punct .comma :: tokens y) ++ stop :: rest))
      (value x :: xs.map value) (stop :: rest) := by
  induction xs generalizing n x with
  | nil =>
      have hx := hitem x stop rest (.inr rfl)
      rw [List.flatMap_nil, List.nil_append]
      cases n with
      | zero => exact hx.bind (pure _ _)
      | succ n => exact hx.bind (eat_else (by simpa using hstop) (pure _ _))
  | cons y ys ih =>
      cases n with
      | zero => simp at hn
      | succ n =>
          have hys := ih (Nat.le_of_succ_le_succ hn) y
          have hx := hitem x (.punct .comma)
            (tokens y ++ ((ys.flatMap fun y => .punct .comma :: tokens y) ++ stop :: rest))
            (.inl rfl)
          simp only [List.flatMap_cons, List.cons_append, List.append_assoc]
          exact hx.bind (eat_then (hys.bind (pure _ _)))

/-- Items up to a closing brace. -/
theorem untilBrace {item : Parser (Option α)} {tokens : β → List TokenKind} {value : β → Option α}
    (hhead : ∀ x rest, (tokens x ++ rest).head? ≠ some (.punct .closeBrace))
    (hitem : ∀ x rest, Reads item (tokens x ++ rest) (value x) rest)
    (xs : List β) {n : Nat} (hn : xs.length < n) (rest : List TokenKind) :
    Reads (untilBrace item n) (xs.flatMap tokens ++ .punct .closeBrace :: rest)
      (xs.filterMap value) rest := by
  induction xs generalizing n with
  | nil =>
      cases n with
      | zero => simp at hn
      | succ n => exact eat_then (pure [] rest)
  | cons x xs ih =>
      cases n with
      | zero => simp at hn
      | succ n =>
          have hxs := ih (Nat.lt_of_succ_lt_succ hn)
          rw [List.flatMap_cons, List.append_assoc]
          have hvalues : (x :: xs).filterMap value = (value x).toList ++ xs.filterMap value := by
            cases hx : value x <;> simp [hx]
          rw [hvalues]
          exact eat_else (hhead x _) ((hitem x _).bind (hxs.bind (pure _ _)))

end Reads
end IdlBindings.Parser
