import IdlBindings.Proofs.Definition.Progress
import IdlBindings.Proofs.Token.Unbounded

/-!
# Parts of the grammar without bounds

The parsers of extended attributes, types and arguments once more, with loops that go on for as long
as their rounds say and with types that call each other to any depth. Each of them comes to an end
on every stream, with the result of the parser that has bounds. The bounds cut nothing off, and they
are not what makes parsing end: every round of a loop and every type takes a token or fails.

## Main definitions

* `Unbounded.commaRound`, `Unbounded.braceRound`: the rounds of the loops over items
* `TokenStream.openType`: a type, by recursion without a bound
* `Unbounded.arguments`: the arguments in parentheses
-/
namespace IdlBindings

open IdlBindings.Parser IdlBindings.OpenParser

namespace Unbounded

variable {α : Type}

/-! ## Loops over items -/

/-- An item and whether a comma follows it, if there is one more item. -/
def commaRound (item : OpenParser α) (more : Bool) : OpenParser (Option (α × Bool)) := do
  if more then
    let a ← item
    return some (a, ← eatPunct .comma)
  else return none

/-- An item, if there is one before the closing brace. -/
def braceRound (item : OpenParser α) (_ : Unit) : OpenParser (Option (α × Unit)) := do
  if ← eatPunct .closeBrace then return none else return some (← item, ())

section Items

variable {item : Parser α}

theorem advances_commaRound (hitem : Progresses item) : Advances (commaRound (ofParser item)) := by
  have hround : Progresses (do
      let a ← item
      return some (a, ← eatPunct .comma)) :=
    hitem.bind fun a => StaysWithin.bind (.of_located (Located.eat _)) fun more => .pure _
  refine .of_closed (fun more => if more then (do
    let a ← item
    return some (a, ← eatPunct .comma)) else return none) (fun more => ?_) (fun more => ?_)
  · simp [commaRound]
  · cases more with
    | true => exact .of_progresses hround
    | false => exact .none

theorem loop_commaRound (hitem : Progresses item) :
    loop List.cons [] (commaRound (ofParser item)) true =
      ofParser (do commaSeparated item (← remaining)) := by
  funext s
  refine (advances_commaRound hitem).endsUpTo_loop
    (fun n more => if more then commaSeparated item n else return []) ?_ ?_ _ true s (Nat.le_refl _)
  · intro more s hs
    obtain ⟨e, he⟩ := hitem.exists_error hs
    cases more with
    | true => simp [commaSeparated, Parser.run_bind, he]
    | false => rfl
  · intro n more
    cases more with
    | true =>
        simp only [unrolled, commaRound, commaSeparated, if_true, liftM_eq, ofParser_bind,
          bind_assoc, pure_bind]
        refine bind_congr fun first => bind_congr fun more => ?_
        cases more <;> simp
    | false => rfl

theorem advances_braceRound (hitem : Progresses item) : Advances (braceRound (ofParser item)) := by
  refine .of_closed (fun _ => do
    if ← eatPunct .closeBrace then return none else return some (← item, ()))
    (fun _ => by simp [braceRound]) (fun _ => ?_)
  refine .after (.of_located (Located.eat _)) fun found => ?_
  cases found with
  | true => exact .none
  | false => exact .of_progresses (hitem.bind fun a => .pure _)

theorem loop_braceRound {item : Parser (Option α)} (hitem : Progresses item) :
    loop (fun first others => first.toList ++ others) [] (braceRound (ofParser item)) () =
      ofParser (do untilBrace item (← remaining)) := by
  funext s
  refine (advances_braceRound hitem).endsUpTo_loop (fun n _ => untilBrace item n) ?_ ?_ _ () s
    (Nat.le_refl _)
  · intro _ s hs
    obtain ⟨e, he⟩ := hitem.exists_error hs
    have hpeek : s.peek = none := by
      simp [TokenStream.peek, List.length_eq_zero_iff.mp (Nat.le_zero.mp hs)]
    simp [untilBrace, Parser.run_bind, eatPunct, run_eat, hpeek, he]
  · intro n _
    simp only [unrolled, braceRound, untilBrace, liftM_eq, ofParser_bind, bind_assoc]
    refine bind_congr fun found => ?_
    cases found <;> simp

end Items

/-! ## Extended attributes -/

/-- A token of the right-hand side of an extended attribute, inside a number of parentheses. -/
def valueRound (depth : Nat) : OpenParser (Option (TokenKind × Nat)) := do
  match ← peek with
  | some kind =>
    if depth = 0 ∧ (kind = .punct .comma ∨ kind = .punct .closeBracket) then return none
    else
      let _ ← advance
      return some (kind, ExtAttr.innerDepth depth kind)
  | none => fail .unfinishedExtAttr

def attrValue : OpenParser String := do
  return (← loop List.cons [] valueRound 0).foldl ExtAttr.appendToken ""

def extAttr : OpenParser ExtAttr := do
  let name ← expectIdent
  if ← eatPunct .equals then
    return ⟨name, some (← attrValue)⟩
  else if (← peek) = some (.punct .openParen) then
    return ⟨name, some (← attrValue)⟩
  else
    return ⟨name, none⟩

def extAttrs : OpenParser (List ExtAttr) := do
  if ← eatPunct .openBracket then
    let attrs ← loop List.cons [] (commaRound extAttr) true
    expectPunct .closeBracket
    return attrs
  else
    return []

theorem valueRound_cons (depth : Nat) (t : Token) (ts : List Token) (stop : Position) :
    valueRound depth ⟨t :: ts, stop⟩ = some (
      if depth = 0 ∧ (t.kind = .punct .comma ∨ t.kind = .punct .closeBracket) then
        .ok (none, ⟨t :: ts, stop⟩)
      else .ok (some (t.kind, ExtAttr.innerDepth depth t.kind), ⟨ts, stop⟩)) := by
  show (if _ then _ else _ : OpenParser _) _ = _
  split <;> rfl

theorem advances_valueRound : Advances valueRound := by
  rintro depth ⟨tokens, stop⟩
  cases tokens with
  | nil => exact ⟨_, rfl, fun _ _ _ hrun => by cases hrun⟩
  | cons t ts =>
      refine ⟨_, valueRound_cons depth t ts stop, fun _ _ _ hrun => ?_⟩
      split at hrun
      · cases hrun
      · cases hrun
        exact .cons t ts stop

/-- The tokens of a right-hand side, with what follows them. -/
def valueKinds (depth : Nat) : Parser (List TokenKind) := fun s =>
  match ExtAttr.valueTokens depth s.tokens with
  | some (kinds, rest) => .ok (kinds, { s with tokens := rest })
  | none => .error ⟨.unfinishedExtAttr, s.stop⟩

theorem loop_valueRound (depth : Nat) :
    loop List.cons [] valueRound depth = ofParser (valueKinds depth) := by
  refine advances_valueRound.loop_eq valueKinds (fun depth => ?_) depth
  funext s
  obtain ⟨tokens, stop⟩ := s
  rw [unrolled, OpenParser.run_bind]
  cases tokens with
  | nil => rfl
  | cons t ts =>
      rw [valueRound_cons]
      by_cases hstop : depth = 0 ∧ (t.kind = .punct .comma ∨ t.kind = .punct .closeBracket)
      · rw [if_pos hstop, ofParser, valueKinds, ExtAttr.valueTokens, if_pos hstop]
        rfl
      · rw [if_neg hstop, ofParser, valueKinds, ExtAttr.valueTokens_of_not_stop ts hstop]
        simp only [OpenParser.run_bind, liftM_eq, ofParser, valueKinds]
        cases ExtAttr.valueTokens (ExtAttr.innerDepth depth t.kind) ts <;> rfl

theorem attrValue_eq : attrValue = ofParser ExtAttr.parseValue := by
  funext s
  rw [attrValue, loop_valueRound, OpenParser.run_bind, ofParser, ofParser, valueKinds,
    ExtAttr.parseValue]
  cases ExtAttr.valueTokens 0 s.tokens <;> rfl

theorem extAttr_eq : extAttr = ofParser ExtAttr.parseOne := by
  simp [extAttr, ExtAttr.parseOne, attrValue_eq]

theorem extAttrs_eq : extAttrs = ofParser ExtAttr.parseList := by
  simp [extAttrs, ExtAttr.parseList, extAttr_eq, loop_commaRound ExtAttr.progresses_parseOne]

/-! ## Types -/

/-- A word for the size of a number. -/
def sizeRound (_ : Unit) : OpenParser (Option (String × Unit)) := do
  match ← peek with
  | some (.ident word) =>
    if IdlType.isSizeWord word then
      let _ ← advance
      return some (word, ())
    else return none
  | _ => return none

def typeName (word : String) : OpenParser String := do
  if IdlType.takesSizeWords word then
    return (← loop List.cons [] sizeRound ()).foldl (fun name size => name ++ " " ++ size) word
  else return word

end Unbounded

open Unbounded

mutual

/-- A type, by recursion without a bound: a type within it is read from the stream that is left. -/
def TokenStream.openType : OpenParser IdlType := do
  let _ ← extAttrs
  if ← eatPunct .openParen then
    let first ← (· |>.openType)
    let others ← (· |>.openTypesAfter (.ident "or"))
    expectPunct .closeParen
    let t := IdlType.union (first :: others)
    if ← eatPunct .question then return t.nullable else return t
  else
    match ← advance with
    | some (.ident word) =>
      let name ← typeName word
      let t ← do
        if ← eatPunct .openAngle then
          let first ← (· |>.openType)
          let others ← (· |>.openTypesAfter (.punct .comma))
          expectPunct .closeAngle
          if others.isEmpty then pure (IdlType.generic name first)
          else pure (IdlType.manyParams name (first :: others))
        else pure (IdlType.named name)
      if ← eatPunct .question then return t.nullable else return t
    | found => fail (.expectedType found)
partial_fixpoint

/-- Further types, each after a separator. -/
def TokenStream.openTypesAfter (separator : TokenKind) : OpenParser (List IdlType) := do
  if ← eat separator then
    let first ← (· |>.openType)
    return first :: (← (· |>.openTypesAfter separator))
  else
    return []
partial_fixpoint

end

namespace Unbounded

open IdlBindings.TokenStream

theorem sizeRound_word {word : String} (hword : IdlType.isSizeWord word = true) (p : Position)
    (ts : List Token) (stop : Position) :
    sizeRound () ⟨⟨.ident word, p⟩ :: ts, stop⟩ = some (.ok (some (word, ()), ⟨ts, stop⟩)) := by
  show (if IdlType.isSizeWord word = true then _ else _ : OpenParser _) _ = _
  rw [if_pos hword]
  rfl

theorem sizeRound_other {t : Token} (ht : ∀ word, t.kind = .ident word → ¬IdlType.isSizeWord word)
    (ts : List Token) (stop : Position) :
    sizeRound () ⟨t :: ts, stop⟩ = some (.ok (none, ⟨t :: ts, stop⟩)) := by
  obtain ⟨kind, position⟩ := t
  cases kind with
  | ident word =>
      show (if IdlType.isSizeWord word = true then _ else _ : OpenParser _) _ = _
      rw [if_neg (ht word rfl)]
      rfl
  | _ => rfl

theorem advances_sizeRound : Advances sizeRound := by
  rintro _ ⟨tokens, stop⟩
  cases tokens with
  | nil => exact ⟨_, rfl, fun _ _ _ hrun => by cases hrun⟩
  | cons t ts =>
      by_cases ht : ∃ word, t.kind = .ident word ∧ IdlType.isSizeWord word = true
      · obtain ⟨kind, position⟩ := t
        obtain ⟨word, rfl, hword⟩ := ht
        refine ⟨_, sizeRound_word hword position ts stop, fun _ _ _ hrun => ?_⟩
        cases hrun
        exact .cons _ ts stop
      · have ht' : ∀ word, t.kind = .ident word → ¬IdlType.isSizeWord word :=
          fun word hkind hword => ht ⟨word, hkind, hword⟩
        exact ⟨_, sizeRound_other ht' ts stop, fun _ _ _ hrun => by cases hrun⟩

/-- The words for the size of a number. -/
def sizes : Parser (List String) := fun s =>
  .ok ((IdlType.sizeWords s.tokens).1, { s with tokens := (IdlType.sizeWords s.tokens).2 })

theorem loop_sizeRound : loop List.cons [] sizeRound () = ofParser sizes := by
  refine advances_sizeRound.loop_eq (fun _ => sizes) (fun _ => ?_) ()
  funext s
  obtain ⟨tokens, stop⟩ := s
  rw [unrolled, OpenParser.run_bind, ofParser, sizes]
  fun_cases IdlType.sizeWords tokens with
  | case1 => rfl
  | case2 t ts word hkind hword words rest hrest =>
      obtain ⟨kind, position⟩ := t
      obtain rfl : kind = .ident word := hkind
      rw [sizeRound_word hword]
      simp only [OpenParser.run_bind, liftM_eq, ofParser, sizes, hrest]
      rfl
  | case3 t ts word hkind hword =>
      have ht : ∀ word, t.kind = .ident word → ¬IdlType.isSizeWord word := by
        intro word' hkind'
        obtain rfl := TokenKind.ident.inj (hkind.symm.trans hkind')
        exact hword
      rw [sizeRound_other ht]
      rfl
  | case4 t ts hkind =>
      rw [sizeRound_other fun word hword => absurd hword (hkind word)]
      rfl

theorem typeName_eq (word : String) : typeName word = ofParser (IdlType.parseName word) := by
  funext s
  rw [typeName, loop_sizeRound, ofParser, IdlType.parseName]
  by_cases hword : IdlType.takesSizeWords word = true
  · rw [if_pos hword, if_pos hword]
    rfl
  · rw [if_neg hword, if_neg hword]
    rfl

theorem endsUpTo_question (n : Nat) (t : IdlType) :
    EndsUpTo n (do if ← eatPunct .question then return t.nullable else return t)
      (do if ← eatPunct .question then return t.nullable else return t) := by
  simpa using EndsUpTo.refl n (do if ← eatPunct .question then return t.nullable else return t)

theorem endsUpTo_type (n : Nat) : EndsUpTo n openType (IdlType.parseWith n) ∧
    ∀ separator, EndsUpTo n (openTypesAfter separator) (IdlType.parseMore separator n) := by
  induction n with
  | zero =>
      constructor
      · intro s hs
        rw [IdlType.parseWith_end 1 s hs]
        obtain ⟨tokens, stop⟩ := s
        obtain rfl := List.length_eq_zero_iff.mp (Nat.le_zero.mp hs)
        rw [openType, extAttrs_eq]
        rfl
      · intro separator s hs
        obtain ⟨tokens, stop⟩ := s
        obtain rfl := List.length_eq_zero_iff.mp (Nat.le_zero.mp hs)
        rw [openTypesAfter]
        rfl
  | succ n ih =>
      obtain ⟨htype, hafter⟩ := ih
      obtain ⟨hpredictive, hmore⟩ := IdlType.predictive_parseWith n
      constructor
      · rw [openType, IdlType.parseWith, extAttrs_eq]
        refine (EndsUpTo.refl _ _).bind ExtAttr.predictive_parseList fun _ => EndsUpTo.eat_ite ?_ ?_
        · refine htype.bind hpredictive fun first => (hafter _).bind (hmore _) fun others => ?_
          refine (EndsUpTo.refl _ _).bind Delimited.expectPunct.predictive fun _ => ?_
          exact endsUpTo_question _ _
        · refine (EndsUpTo.refl _ _).bind .advance fun found => ?_
          match found with
          | some (.ident word) =>
              have hname : EndsUpTo (n + 1) (typeName word) (IdlType.parseName word) := by
                rw [typeName_eq]
                exact .refl _ _
              refine hname.bind (IdlType.predictive_parseName word) fun name => ?_
              refine EndsUpTo.eat_ite ?_ (endsUpTo_question _ _)
              refine htype.bind hpredictive fun first => (hafter _).bind (hmore _) fun others => ?_
              refine (EndsUpTo.refl _ _).bind Delimited.expectPunct.predictive fun _ => ?_
              split
              · exact endsUpTo_question _ _
              · exact endsUpTo_question _ _
          | none | some (.text _) | some (.number _) | some (.punct _) | some .ellipsis =>
              exact .refl _ _
      · intro separator
        rw [openTypesAfter, IdlType.parseMore]
        refine EndsUpTo.eat_ite (htype.bind hpredictive fun first => ?_) (.refl _ _)
        exact (hafter separator).bind (hmore separator) fun others => .refl _ _

theorem openType_eq : openType = ofParser IdlType.parse := by
  funext s
  exact (endsUpTo_type s.tokens.length).1 s (Nat.le_refl _)

/-! ## Arguments -/

def argument : OpenParser Argument := do
  let _ ← extAttrs
  let optional ← eatKeyword "optional"
  let type ← openType
  let variadic ← eat .ellipsis
  let name ← expectIdent
  let default ← do
    if optional then
      if ← eatPunct .equals then some <$> parseDefault else pure none
    else pure none
  return ⟨name, type, optional || variadic, variadic, default⟩

def arguments : OpenParser (List Argument) := do
  expectPunct .openParen
  if ← eatPunct .closeParen then
    return []
  else
    let arguments ← loop List.cons [] (commaRound argument) true
    expectPunct .closeParen
    return arguments

theorem argument_eq : argument = ofParser Argument.parse := by
  simp [argument, Argument.parse, extAttrs_eq, openType_eq]

theorem arguments_eq : arguments = ofParser Argument.parseList := by
  simp [arguments, Argument.parseList, argument_eq, loop_commaRound Argument.progresses_parse]

end Unbounded
end IdlBindings
