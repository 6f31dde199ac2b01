import IdlBindings.Proofs.Definition.FaultPlaces
import IdlBindings.Proofs.Definition.Lookahead
import IdlBindings.Proofs.Token.Progress

/-!
# The grammar moves on

Every definition, member, argument and type takes at least one token: it has a name, a mark or a
word that it cannot do without. So do the bodies and the lists in parentheses, which start with a
mark, and a default value. Only what may be missing, such as extended attributes, can take nothing.
-/
namespace IdlBindings

open IdlBindings.Parser

/-! ## Types -/

namespace IdlType

theorem TypeSpelling.ne_nil {kinds : List TokenKind} {t : IdlType} (h : TypeSpelling kinds t) :
    kinds ≠ [] := by
  cases h <;> simp [TypeWords.tokens]

/-- A type is spelled with at least one token. -/
theorem progresses_parse : Progresses parse := by
  intro s t rest hrun
  obtain ⟨_, taken, hkinds, kinds, hspelling, hkeeps⟩ := consumes_parse s t rest hrun
  refine ⟨StaysWithin.of_located located_parse s t rest hrun, ?_⟩
  have hne : taken ≠ [] := by
    rintro rfl
    exact TypeSpelling.ne_nil hspelling hkeeps.withoutAttrs_eq.symm
  have hlength := congrArg List.length hkinds
  have hpos := List.length_pos_iff.mpr hne
  rw [List.length_append, length_kinds, length_kinds] at hlength
  omega

end IdlType

/-! ## Extended attributes, values and arguments -/

theorem ExtAttr.staysWithin_parseList : StaysWithin ExtAttr.parseList :=
  .of_located located_parseList

theorem ExtAttr.progresses_parseOne : Progresses ExtAttr.parseOne := by
  refine Progresses.expectIdent.bind fun name => ?_
  have hvalue : StaysWithin parseValue := .of_located located_parseValue
  have hplain : StaysWithin (do
      if (← peek) = some (.punct .openParen) then return ⟨name, some (← parseValue)⟩
      else return ⟨name, none⟩ : Parser ExtAttr) := by
    refine StaysWithin.bind (.of_located fun s => Located.peek_bind (.pure _ s)) fun found => ?_
    split
    · exact hvalue.bind fun value => .pure _
    · exact .pure _
  refine StaysWithin.bind (.of_located (Located.eat _)) fun found => ?_
  split
  · exact hvalue.bind fun value => .pure _
  · exact hplain

theorem progresses_parseDefault : Progresses parseDefault := by
  have hclosed : ∀ mark (text : String), StaysWithin (do expectPunct mark; return text) :=
    fun mark text => Progresses.expectPunct.staysWithin.bind fun _ => .pure text
  refine Progresses.advance_bind (fun s value rest hrun => by cases hrun) fun kind => ?_
  cases kind with
  | ident word => exact .pure _
  | text value => exact .pure _
  | number digits => exact .pure _
  | ellipsis => exact .fail _
  | punct mark =>
      cases mark with
      | minus =>
          refine StaysWithin.bind (.of_located Located.advance) fun found => ?_
          split
          · exact .pure _
          · exact .fail _
      | openBracket => exact hclosed _ _
      | openBrace => exact hclosed _ _
      | _ => exact .fail _

/-- What may follow the name of an argument or a member of a dictionary. -/
theorem staysWithin_default {α : Type} {f : Option String → Parser α}
    (hf : ∀ default, StaysWithin (f default)) :
    StaysWithin (eatPunct .equals >>= fun found =>
      if found = true then (some <$> parseDefault) >>= f else pure none >>= f) := by
  refine StaysWithin.bind (.of_located (Located.eat _)) fun found => ?_
  split
  · exact StaysWithin.bind (.of_located fun s => (located_parseDefault s).map) hf
  · exact StaysWithin.bind (.pure none) hf

theorem Argument.progresses_parse : Progresses Argument.parse := by
  refine .after ExtAttr.staysWithin_parseList fun _ => ?_
  refine .after (.of_located (Located.eat _)) fun optional => ?_
  refine IdlType.progresses_parse.bind fun type => ?_
  refine StaysWithin.bind (.of_located (Located.eat _)) fun variadic => ?_
  refine Progresses.expectIdent.staysWithin.bind fun name => ?_
  split
  · exact staysWithin_default fun default => .pure _
  · exact (StaysWithin.pure none).bind fun default => .pure _

theorem Argument.progresses_parseList : Progresses Argument.parseList := by
  refine Progresses.expectPunct.bind fun _ => ?_
  refine StaysWithin.bind (.of_located (Located.eat _)) fun found => ?_
  split
  · exact .pure []
  · refine StaysWithin.of_located fun s => Located.remaining_bind ?_
    refine (Located.commaSeparated Argument.located_parse _ s).bind fun _ rest _ _ => ?_
    exact (Located.expectPunct _ rest).bind fun _ left _ _ => .pure _ left

/-! ## Members -/

theorem Member.progresses_parseSkipped : Progresses parseSkipped :=
  .of_delimited delimited_parseSkipped (.of_located located_parseSkipped)

theorem Member.progresses_parse : Progresses Member.parse :=
  .of_delimited delimited_parse (.of_located located_parse)

theorem Member.progresses_parseBody : Progresses Member.parseBody :=
  Progresses.expectPunct.bind fun _ => .of_located fun s =>
    Located.remaining_bind (Located.untilBrace located_parse _ s)

theorem Field.progresses_parse : Progresses Field.parse := by
  refine .after ExtAttr.staysWithin_parseList fun _ => ?_
  refine .after (.of_located (Located.eat _)) fun required => ?_
  refine .after ExtAttr.staysWithin_parseList fun _ => ?_
  refine IdlType.progresses_parse.bind fun type => ?_
  refine Progresses.expectIdent.staysWithin.bind fun name => staysWithin_default fun default => ?_
  exact Progresses.expectPunct.staysWithin.bind fun _ => .pure _

theorem Field.progresses_parseBody : Progresses Field.parseBody :=
  Progresses.expectPunct.bind fun _ => .of_located fun s =>
    Located.remaining_bind (Located.untilBrace (fun rest => (Field.located_parse rest).map) _ s)

/-! ## Definitions -/

namespace Definition

theorem staysWithin_parseBody (isPartial : Bool) (extAttrs : List ExtAttr) :
    StaysWithin (parseBody isPartial extAttrs) := .of_located (located_parseBody isPartial extAttrs)

theorem progresses_parse : Progresses Definition.parse := by
  refine .after ExtAttr.staysWithin_parseList fun extAttrs => ?_
  refine .after (.of_located (Located.eat _)) fun isPartial => ?_
  refine .after (staysWithin_parseBody isPartial extAttrs) fun definition => ?_
  exact Progresses.expectPunct.bind fun _ => .pure definition

end Definition
end IdlBindings
