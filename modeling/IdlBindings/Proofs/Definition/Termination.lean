import IdlBindings.Proofs.Definition.Unbounded

/-!
# Parsing ends

Members and definitions without bounds, up to the loop over all definitions of a document. That loop
has a result on every stream, so parsing ends on well-formed, malformed and truncated input alike.

## Main definitions

* `Unbounded.member`, `Unbounded.definition`: a member and a definition
* `Unbounded.definitions`: all definitions of a document
-/
namespace IdlBindings

open IdlBindings.Parser IdlBindings.OpenParser IdlBindings.TokenStream

namespace Unbounded

/-! ## Members -/

/-- A token of a member that is skipped, inside a number of brackets. -/
def skipRound (depth : Nat) : OpenParser (Option (Unit × Nat)) := do
  match ← advance with
  | some kind =>
    if kind = .punct .semicolon ∧ depth = 0 then return none
    else return some ((), Member.depthAfter depth kind)
  | none => fail .unfinishedMember

def skipped : OpenParser Unit := loop (fun _ _ => ()) () skipRound 0

def constructorMember (extAttrs : List ExtAttr) : OpenParser Member := do
  let arguments ← arguments
  expectPunct .semicolon
  return .constructor ⟨arguments, extAttrs⟩

def attributeMember (isStatic readonly : Bool) (extAttrs : List ExtAttr) : OpenParser Member := do
  let type ← openType
  let name ← expectIdent
  expectPunct .semicolon
  return .attribute ⟨name, type, readonly, isStatic, extAttrs⟩

def operationMember (isStatic : Bool) (extAttrs : List ExtAttr) : OpenParser Member := do
  let type ← openType
  match ← peek with
  | some (.ident _) =>
    let name ← expectIdent
    let arguments ← arguments
    expectPunct .semicolon
    let result := if type.isUndefined then none else some type
    return .operation ⟨name, arguments, result, isStatic, extAttrs⟩
  | _ => fail .anonymousOperation

def plainMember (extAttrs : List ExtAttr) : OpenParser Member := do
  let isStatic ← eatKeyword "static"
  let readonly ← eatKeyword "readonly"
  if ← eatKeyword "attribute" then
    attributeMember isStatic readonly extAttrs
  else if readonly then
    fail .expectedAttribute
  else
    operationMember isStatic extAttrs

def member : OpenParser (Option Member) := do
  let extAttrs ← extAttrs
  if Member.startsSkipped (← peek) then
    skipped
    return none
  else if ← eatKeyword "constructor" then
    some <$> constructorMember extAttrs
  else
    some <$> plainMember extAttrs

def members : OpenParser (List Member) := do
  expectPunct .openBrace
  loop (fun first others => first.toList ++ others) [] (braceRound member) ()

def field : OpenParser Field := do
  let _ ← extAttrs
  let required ← eatKeyword "required"
  let _ ← extAttrs
  let type ← openType
  let name ← expectIdent
  let default ← do if ← eatPunct .equals then some <$> parseDefault else pure none
  expectPunct .semicolon
  return ⟨name, type, required, default⟩

def fields : OpenParser (List Field) := do
  expectPunct .openBrace
  loop (fun first others => first.toList ++ others) [] (braceRound (some <$> field)) ()

theorem skipRound_cons (depth : Nat) (t : Token) (ts : List Token) (stop : Position) :
    skipRound depth ⟨t :: ts, stop⟩ =
      some (.ok (if t.kind = .punct .semicolon ∧ depth = 0 then none
        else some ((), Member.depthAfter depth t.kind), ⟨ts, stop⟩)) := by
  show (if _ then _ else _ : OpenParser _) _ = _
  split <;> rfl

theorem advances_skipRound : Advances skipRound := by
  rintro depth ⟨tokens, stop⟩
  cases tokens with
  | nil => exact ⟨_, rfl, fun _ _ _ hrun => by cases hrun⟩
  | cons t ts =>
      refine ⟨_, skipRound_cons depth t ts stop, fun _ _ _ hrun => ?_⟩
      obtain ⟨_, rfl⟩ := Prod.mk.inj (Except.ok.inj hrun)
      exact .cons t ts stop

/-- What follows the semicolon of a member that is skipped from inside a number of brackets. -/
def skippedFrom (depth : Nat) : Parser Unit := fun s =>
  match Member.skip depth s.tokens with
  | some rest => .ok ((), { s with tokens := rest })
  | none => .error ⟨.unfinishedMember, s.stop⟩

theorem skipped_eq : skipped = ofParser Member.parseSkipped := by
  refine advances_skipRound.loop_eq skippedFrom (fun depth => ?_) 0
  funext s
  obtain ⟨tokens, stop⟩ := s
  rw [unrolled, OpenParser.run_bind]
  cases tokens with
  | nil => rfl
  | cons t ts =>
      rw [skipRound_cons, ofParser, skippedFrom, Member.skip_cons]
      by_cases hstop : t.kind = .punct .semicolon ∧ depth = 0
      · rw [if_pos hstop, if_pos hstop]
        rfl
      · rw [if_neg hstop, if_neg hstop]
        simp only [OpenParser.run_bind, liftM_eq, ofParser, skippedFrom]
        cases Member.skip (Member.depthAfter depth t.kind) ts <;> rfl

theorem constructorMember_eq (extAttrs : List ExtAttr) :
    constructorMember extAttrs = ofParser (Member.parseConstructor extAttrs) := by
  simp [constructorMember, Member.parseConstructor, arguments_eq]

theorem attributeMember_eq (isStatic readonly : Bool) (extAttrs : List ExtAttr) :
    attributeMember isStatic readonly extAttrs =
      ofParser (Member.parseAttribute isStatic readonly extAttrs) := by
  simp [attributeMember, Member.parseAttribute, openType_eq]

theorem operationMember_eq (isStatic : Bool) (extAttrs : List ExtAttr) :
    operationMember isStatic extAttrs = ofParser (Member.parseOperation isStatic extAttrs) := by
  simp only [operationMember, Member.parseOperation, openType_eq, arguments_eq, liftM_eq,
    ofParser_bind]
  refine bind_congr fun type => bind_congr fun found => ?_
  split <;> simp

theorem plainMember_eq (extAttrs : List ExtAttr) :
    plainMember extAttrs = ofParser (Member.parseStaticOrPlain extAttrs) := by
  simp [plainMember, Member.parseStaticOrPlain, attributeMember_eq, operationMember_eq]

theorem member_eq : member = ofParser Member.parse := by
  simp [member, Member.parse, extAttrs_eq, skipped_eq, constructorMember_eq, plainMember_eq]

theorem members_eq : members = ofParser Member.parseBody := by
  simp [members, Member.parseBody, member_eq, loop_braceRound Member.progresses_parse]

theorem field_eq : field = ofParser Field.parse := by
  simp [field, Field.parse, extAttrs_eq, openType_eq]

theorem fields_eq : fields = ofParser Field.parseBody := by
  simp [fields, Field.parseBody, field_eq, ← ofParser_map,
    loop_braceRound Field.progresses_parse.map]

/-! ## Definitions -/

/-- A literal of an enumeration and whether another follows it. -/
def literal : Parser (String × Bool) := do
  match ← advance with
  | some (.text value) =>
    if ← eatPunct .comma then
      return (value, !(← eatPunct .closeBrace))
    else
      expectPunct .closeBrace
      return (value, false)
  | found => fail (.expectedEnumValue found)

def literalRound (more : Bool) : OpenParser (Option (String × Bool)) := do
  if more then return some (← literal) else return none

def literals : OpenParser (List String) := loop List.cons [] literalRound true

def interfaceDefinition (isPartial : Bool) (extAttrs : List ExtAttr) : OpenParser Definition := do
  if ← eatKeyword "mixin" then
    let name ← expectIdent
    let members ← members
    return .mixin ⟨name, isPartial, members⟩
  else
    let name ← expectIdent
    let parent ← Definition.parseParent
    let members ← members
    return .interface ⟨name, isPartial, parent, members, extAttrs⟩

def dictionaryDefinition (isPartial : Bool) : OpenParser Definition := do
  let name ← expectIdent
  let parent ← Definition.parseParent
  let fields ← fields
  return .dictionary ⟨name, isPartial, parent, fields⟩

def enumDefinition : OpenParser Definition := do
  let name ← expectIdent
  expectPunct .openBrace
  let values ← literals
  return .enumeration ⟨name, values⟩

def aliasDefinition : OpenParser Definition := do
  let _ ← extAttrs
  let type ← openType
  let name ← expectIdent
  return .typedef ⟨name, type⟩

def definitionBody (isPartial : Bool) (extAttrs : List ExtAttr) : OpenParser Definition := fun s =>
  match s.peek with
  | some (.ident word) =>
    if word = "interface" then interfaceDefinition isPartial extAttrs s.drop
    else if word = "dictionary" then dictionaryDefinition isPartial s.drop
    else if word = "enum" ∧ !isPartial then enumDefinition s.drop
    else if word = "typedef" ∧ !isPartial then aliasDefinition s.drop
    else if word = "callback" ∨ word = "namespace" then
      ofParser (fail (.unsupportedDefinition word)) s
    else if s.peekSecond = some (.ident "includes") ∧ !isPartial then
      ofParser Definition.parseIncludes s
    else ofParser (fail (.expectedDefinition s.peek)) s
  | found => ofParser (fail (.expectedDefinition found)) s

def definition : OpenParser Definition := do
  let extAttrs ← extAttrs
  let isPartial ← eatKeyword "partial"
  let definition ← definitionBody isPartial extAttrs
  expectPunct .semicolon
  return definition

/-- A definition, if the input has not ended. -/
def definitionRound (_ : Unit) : OpenParser (Option (Definition × Unit)) := do
  if (← peek).isNone then return none else return some (← definition, ())

def definitions : OpenParser (List Definition) := loop List.cons [] definitionRound ()

theorem progresses_literal : Progresses literal := by
  refine Progresses.advance_bind (fun s b rest hrun => by cases hrun) fun kind => ?_
  cases kind with
  | text value =>
      refine StaysWithin.bind (.of_located (Located.eat _)) fun found => ?_
      split
      · exact StaysWithin.bind (.of_located (Located.eat _)) fun closed => .pure _
      · exact Progresses.expectPunct.staysWithin.bind fun _ => .pure _
  | _ => exact .fail _

theorem advances_literalRound : Advances literalRound := by
  refine .of_closed (fun more => if more then some <$> literal else return none)
    (fun more => ?_) (fun more => ?_)
  · simp [literalRound]
  · cases more with
    | true => exact .of_progresses progresses_literal.map
    | false => exact .none

theorem literals_eq : literals = ofParser (do parseEnumValues (← remaining)) := by
  funext s
  refine advances_literalRound.endsUpTo_loop
    (fun n more => if more then parseEnumValues n else return []) ?_ ?_ _ true s (Nat.le_refl _)
  · intro more s hs
    cases more with
    | true =>
        have hpeek : s.peek = none := by
          simp [TokenStream.peek, List.length_eq_zero_iff.mp (Nat.le_zero.mp hs)]
        simp [parseEnumValues, Parser.run_bind, hpeek, TokenStream.drop_of_peek_eq_none hpeek]
    | false => rfl
  · intro n more
    cases more with
    | true =>
        simp only [unrolled, parseEnumValues, literalRound, literal, if_true, liftM_eq,
          ofParser_bind, bind_assoc]
        refine bind_congr fun found => ?_
        cases found with
        | none => rfl
        | some kind =>
            cases kind with
            | text value =>
                simp only [ofParser_bind, bind_assoc]
                refine bind_congr fun comma => ?_
                cases comma with
                | true =>
                    simp only [if_true, ofParser_bind, bind_assoc]
                    refine bind_congr fun closed => ?_
                    cases closed <;> simp
                | false => simp
            | _ => rfl
    | false => rfl

theorem interfaceDefinition_eq (isPartial : Bool) (extAttrs : List ExtAttr) :
    interfaceDefinition isPartial extAttrs =
      ofParser (Definition.parseInterface isPartial extAttrs) := by
  simp [interfaceDefinition, Definition.parseInterface, members_eq]

theorem dictionaryDefinition_eq (isPartial : Bool) :
    dictionaryDefinition isPartial = ofParser (Definition.parseDictionary isPartial) := by
  simp [dictionaryDefinition, Definition.parseDictionary, fields_eq]

theorem enumDefinition_eq : enumDefinition = ofParser Definition.parseEnum := by
  simp [enumDefinition, Definition.parseEnum, literals_eq]

theorem aliasDefinition_eq : aliasDefinition = ofParser Definition.parseTypedef := by
  simp [aliasDefinition, Definition.parseTypedef, extAttrs_eq, openType_eq]

theorem definitionBody_eq (isPartial : Bool) (extAttrs : List ExtAttr) :
    definitionBody isPartial extAttrs = ofParser (Definition.parseBody isPartial extAttrs) := by
  funext s
  simp only [definitionBody, Definition.parseBody, ofParser, interfaceDefinition_eq,
    dictionaryDefinition_eq, enumDefinition_eq, aliasDefinition_eq]
  generalize s.peek = found
  match found with
  | some (.ident word) => simp only [← apply_ite some]
  | none | some (.text _) | some (.number _) | some (.punct _) | some .ellipsis => rfl

theorem definition_eq : definition = ofParser Definition.parse := by
  simp [definition, Definition.parse, extAttrs_eq, definitionBody_eq]

theorem advances_definitionRound : Advances definitionRound := by
  refine .of_closed (fun _ => do
    if (← peek).isNone then return none else return some (← Definition.parse, ()))
    (fun _ => by simp [definitionRound, definition_eq]) (fun _ => ?_)
  refine .after (.of_located fun s => Located.peek_bind (.pure _ s)) fun found => ?_
  split
  · exact .none
  · exact .of_progresses (Definition.progresses_parse.bind fun a => .pure _)

theorem definitions_eq : definitions = ofParser (do Definition.parseAll (← remaining)) := by
  funext s
  refine advances_definitionRound.endsUpTo_loop (fun n _ => Definition.parseAll n) ?_ ?_ _ () s
    (Nat.le_refl _)
  · intro _ s hs
    have hpeek : s.peek = none := by
      simp [TokenStream.peek, List.length_eq_zero_iff.mp (Nat.le_zero.mp hs)]
    simp [Definition.parseAll, Parser.run_bind, hpeek]
  · intro n _
    simp only [unrolled, definitionRound, definition_eq, Definition.parseAll, liftM_eq,
      ofParser_bind, bind_assoc]
    refine bind_congr fun found => ?_
    split <;> simp

end Unbounded

/-! ## Parsing ends -/

/-- Each further type takes its separator and at least one token more. -/
theorem IdlType.length_parseMore_le {separator : TokenKind} {n : Nat} {s rest : TokenStream}
    {ts : List IdlType} (hs : s.tokens.length ≤ n)
    (hrun : parseMore separator n s = .ok (ts, rest)) :
    2 * ts.length + rest.tokens.length ≤ s.tokens.length := by
  induction n generalizing s ts with
  | zero =>
      rw [parseMore] at hrun
      cases hrun
      simp
  | succ n ih =>
      rw [parseMore, Parser.run_bind, run_eat] at hrun
      by_cases hpeek : s.peek = some separator
      · rw [if_pos hpeek] at hrun
        obtain ⟨first, s', hfirst, hrun⟩ := run_bind_eq_ok_iff.mp hrun
        obtain ⟨others, s'', hothers, hpure⟩ := run_bind_eq_ok_iff.mp hrun
        cases hpure
        have hdrop := Located.length_drop_lt hpeek
        -- A bound that is too large gives the same type as the number of tokens.
        have hparse : IdlType.parse s.drop = .ok (first, s') := by
          have hagree := (boundFree_parseWith s.drop.tokens.length n (by omega)).1 s.drop
          exact (hagree (Nat.le_refl _)).trans hfirst
        have hshorter := (progresses_parse s.drop first s' hparse).shorter
        have hrest := ih (by omega) hothers
        rw [List.length_cons]
        omega
      · rw [if_neg hpeek] at hrun
        cases hrun
        simp

/-- All definitions are read up to the end of the input. -/
theorem Definition.rest_of_parseAll {n : Nat} {s rest : TokenStream} {ds : List Definition}
    (hs : s.tokens.length ≤ n) (hrun : parseAll n s = .ok (ds, rest)) : rest = ⟨[], s.stop⟩ := by
  induction n generalizing s ds with
  | zero =>
      obtain ⟨tokens, stop⟩ := s
      obtain rfl := List.length_eq_zero_iff.mp (Nat.le_zero.mp hs)
      rw [parseAll] at hrun
      cases hrun
      rfl
  | succ n ih =>
      rw [parseAll, Parser.run_bind, run_peek] at hrun
      obtain ⟨tokens, stop⟩ := s
      cases tokens with
      | nil =>
          cases hrun
          rfl
      | cons t ts =>
          obtain ⟨first, s', hfirst, hrun⟩ := run_bind_eq_ok_iff.mp hrun
          obtain ⟨others, s'', hothers, hpure⟩ := run_bind_eq_ok_iff.mp hrun
          cases hpure
          have hread := progresses_parse _ first s' hfirst
          have hshorter := hread.shorter
          rw [← hread.stop]
          exact ih (by omega) hothers

theorem Definition.progresses_literals :
    Progresses (do expectPunct .openBrace; parseEnumValues (← remaining)) := by
  refine Progresses.expectPunct.bind fun _ => .of_located fun s => Located.remaining_bind ?_
  exact located_parseEnumValues s.tokens.length s (Nat.le_refl _)

/-- **Parsing always ends.** Without any bound, the parser of documents has a result for every
stream, the one of the parser with bounds, and if that is no error it stands at the end of input.
Every round of a loop ends, and takes a token unless it is the last; every type takes a token or
fails, and so do the definitions, bodies, members, lists of arguments, default values and skipped
members. No parser moves past the end of the input. There, each of those says what is missing. -/
theorem parsing_terminates :
    (∀ s, ∃ result, Unbounded.definitions s = some result ∧
      result.map Prod.fst = Definition.listOfTokens s ∧
      ∀ ds rest, result = .ok (ds, rest) → rest = ⟨[], s.stop⟩) ∧
    (Advances Unbounded.definitionRound ∧ Advances (Unbounded.braceRound Unbounded.member) ∧
      Advances (Unbounded.braceRound (some <$> Unbounded.field)) ∧
      Advances Unbounded.literalRound ∧ Advances (Unbounded.commaRound Unbounded.argument) ∧
      Advances (Unbounded.commaRound Unbounded.extAttr) ∧ Advances Unbounded.valueRound ∧
      Advances Unbounded.skipRound ∧ Advances Unbounded.sizeRound) ∧
    (∀ s : TokenStream, ∃ result, s.openType = some result ∧
      ∀ t rest, result = .ok (t, rest) → rest.ReadFrom s) ∧
    (∀ separator (s : TokenStream), ∃ result, s.openTypesAfter separator = some result ∧
      ∀ ts rest, result = .ok (ts, rest) → 2 * ts.length + rest.tokens.length ≤ s.tokens.length) ∧
    (Progresses Definition.parse ∧ Progresses Member.parseBody ∧ Progresses Field.parseBody ∧
      Progresses (do expectPunct .openBrace; parseEnumValues (← remaining)) ∧
      Progresses Member.parse ∧ Progresses Argument.parseList ∧ Progresses IdlType.parse ∧
      Progresses parseDefault ∧ Progresses Member.parseSkipped ∧
      StaysWithin ExtAttr.parseList) ∧
    ∀ stop,
      Definition.parse ⟨[], stop⟩ = .error ⟨.expectedDefinition none, stop⟩ ∧
      Member.parseBody ⟨[], stop⟩ = .error ⟨.expectedPunct .openBrace none, stop⟩ ∧
      Field.parseBody ⟨[], stop⟩ = .error ⟨.expectedPunct .openBrace none, stop⟩ ∧
      (do expectPunct .openBrace; parseEnumValues (← remaining)) ⟨[], stop⟩ =
        .error ⟨.expectedPunct .openBrace none, stop⟩ ∧
      Member.parse ⟨[], stop⟩ = .error ⟨.expectedType none, stop⟩ ∧
      Argument.parseList ⟨[], stop⟩ = .error ⟨.expectedPunct .openParen none, stop⟩ ∧
      IdlType.parse ⟨[], stop⟩ = .error ⟨.expectedType none, stop⟩ ∧
      parseDefault ⟨[], stop⟩ = .error ⟨.expectedDefault none, stop⟩ ∧
      Member.parseSkipped ⟨[], stop⟩ = .error ⟨.unfinishedMember, stop⟩ := by
  refine ⟨fun s => ?_, ?_, fun s => ?_, fun separator s => ?_, ?_, fun stop => ?_⟩
  · refine ⟨_, congrFun Unbounded.definitions_eq s, rfl, fun ds rest hrun => ?_⟩
    exact Definition.rest_of_parseAll (Nat.le_refl _) hrun
  · refine ⟨Unbounded.advances_definitionRound, ?_, ?_, Unbounded.advances_literalRound, ?_, ?_,
      Unbounded.advances_valueRound, Unbounded.advances_skipRound, Unbounded.advances_sizeRound⟩
    · rw [Unbounded.member_eq]
      exact Unbounded.advances_braceRound Member.progresses_parse
    · rw [Unbounded.field_eq, ← ofParser_map]
      exact Unbounded.advances_braceRound Field.progresses_parse.map
    · rw [Unbounded.argument_eq]
      exact Unbounded.advances_commaRound Argument.progresses_parse
    · rw [Unbounded.extAttr_eq]
      exact Unbounded.advances_commaRound ExtAttr.progresses_parseOne
  · exact ⟨_, congrFun Unbounded.openType_eq s, IdlType.progresses_parse s⟩
  · refine ⟨_, (Unbounded.endsUpTo_type s.tokens.length).2 separator s (Nat.le_refl _), ?_⟩
    exact fun ts rest hrun => IdlType.length_parseMore_le (Nat.le_refl _) hrun
  · exact ⟨Definition.progresses_parse, Member.progresses_parseBody, Field.progresses_parseBody,
      Definition.progresses_literals, Member.progresses_parse, Argument.progresses_parseList,
      IdlType.progresses_parse, progresses_parseDefault, Member.progresses_parseSkipped,
      ExtAttr.staysWithin_parseList⟩
  · exact ⟨rfl, rfl, rfl, rfl, rfl, rfl, rfl, rfl, rfl⟩

end IdlBindings
