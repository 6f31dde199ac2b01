import IdlBindings.Binding.Unit
import Mathlib.Data.List.Infix

/-!
# Stubs in the text of a unit

A stub is a line that throws, and the lines of a part of the code come back in the lines of the
whole: deeper, behind the end of another case, or as they are. So every construct that a unit
reports is named in its text by the line that throws for it.

## Main definitions

* `Shows`: a text stands in one of some lines
-/
namespace IdlBindings

/-- The text stands in one of the lines. -/
def Shows (text : String) (lines : List String) : Prop :=
  ∃ line ∈ lines, text.toList <:+: line.toList

variable {text : String} {lines more : List String}

namespace Shows

theorem mono (h : Shows text lines) (hsub : lines ⊆ more) : Shows text more := by
  obtain ⟨line, hline, htext⟩ := h
  exact ⟨line, hsub hline, htext⟩

theorem of_mem (h : text ∈ lines) : Shows text lines := ⟨text, h, List.infix_rfl⟩

theorem behind (before : String) (hmem : before ++ text ∈ lines) : Shows text lines := by
  refine ⟨before ++ text, hmem, ?_⟩
  rw [String.toList_append]
  exact (List.suffix_append _ _).isInfix

theorem deeper (h : Shows text lines) : Shows text (deeper lines) := by
  obtain ⟨line, hline, htext⟩ := h
  refine ⟨indentLine "  " line, List.mem_map_of_mem hline, ?_⟩
  rw [indentLine]
  split
  · rename_i hempty
    rwa [hempty] at htext
  · rw [String.toList_append]
    exact htext.trans (List.suffix_append _ _).isInfix

theorem codeText (h : Shows text lines) : text.toList <:+: (codeText lines).toList := by
  obtain ⟨line, hline, htext⟩ := h
  obtain ⟨before, after, rfl⟩ := List.append_of_mem hline
  refine htext.trans ?_
  refine ⟨(IdlBindings.codeText before).toList, ('\n' :: (IdlBindings.codeText after).toList), ?_⟩
  simp [IdlBindings.codeText, String.join_append, String.join_cons]

end Shows

/-! ## Blocks -/

/-- The constructs that a step gives up on. -/
def Action.stubs : Action → List String
  | notImplemented what => [what]
  | _ => []

theorem Action.shows_of_mem_stubs {a : Action} {what : String} (h : what ∈ a.stubs) :
    Shows (throwNotImplemented what) a.lines := by
  cases a with
  | notImplemented what' =>
      obtain rfl := List.mem_singleton.mp h
      exact .of_mem List.mem_cons_self
  | _ => cases h

namespace Block

theorem stubs_eq (b : Block) : b.stubs = b.actions.flatMap Action.stubs := by
  rw [stubs, List.filterMap_eq_flatMap_toList]
  congr 1
  funext a
  cases a <;> rfl

@[simp] theorem stubs_done : done.stubs = [] := rfl

@[simp] theorem stubs_act (a : Action) (rest : Block) :
    (act a rest).stubs = a.stubs ++ rest.stubs := by
  simp [stubs_eq, actions]

@[simp] theorem stubs_choose (test : Test) (yes no rest : Block) :
    (choose test yes no rest).stubs = yes.stubs ++ no.stubs ++ rest.stubs := by
  simp [stubs_eq, actions]

@[simp] theorem stubs_choice (test : Test) (yes no : Block) :
    (choice test yes no).stubs = yes.stubs ++ no.stubs := by
  simp [choice]

@[simp] theorem stubs_append (a b : Block) : (a.append b).stubs = a.stubs ++ b.stubs := by
  rw [stubs_eq, ← append_eq, actions_append, List.flatMap_append, ← stubs_eq, ← stubs_eq]

@[simp] theorem stubs_ofActions (as : List Action) :
    (ofActions as).stubs = as.flatMap Action.stubs := by
  induction as with
  | nil => rfl
  | cons a as ih => rw [ofActions, stubs_act, ih, List.flatMap_cons]

/-- The lines of an alternative come back behind the first case. -/
theorem shows_alternativeLines {no : Block} (h : Shows text no.lines) :
    Shows text (alternativeLines no no.lines) := by
  unfold alternativeLines
  split
  · obtain ⟨line, hline, _⟩ := h
    cases hline
  · rename_i first others hlines
    rw [hlines] at h
    obtain ⟨line, hline, htext⟩ := h
    rcases List.mem_cons.mp hline with rfl | hline
    · refine ⟨_, List.mem_cons_self, htext.trans ?_⟩
      rw [String.toList_append]
      exact (List.suffix_append _ _).isInfix
    · exact ⟨line, List.mem_cons_of_mem _ hline, htext⟩
  · refine h.deeper.mono ?_
    intro line hline
    simp [hline]

theorem shows_of_mem_stubs {b : Block} {construct : String} (h : construct ∈ b.stubs) :
    Shows (throwNotImplemented construct) b.lines := by
  induction b with
  | done => cases h
  | act a rest ih =>
      rw [stubs_act, List.mem_append] at h
      rw [Block.lines]
      rcases h with h | h
      · exact (Action.shows_of_mem_stubs h).mono (List.subset_append_left _ _)
      · exact (ih h).mono (List.subset_append_right _ _)
  | choose test yes no rest ihyes ihno ihrest =>
      rw [stubs_choose, List.mem_append, List.mem_append] at h
      rw [Block.lines]
      rcases h with (h | h) | h
      · refine (ihyes h).deeper.mono ?_
        intro line hline
        simp [hline]
      · refine (shows_alternativeLines (ihno h)).mono ?_
        intro line hline
        simp [hline]
      · exact (ihrest h).mono (List.subset_append_right _ _)

end Block

/-! ## Sections -/

theorem mem_joinParagraphs {paragraph : List String} {paragraphs : List (List String)}
    (h : paragraph ∈ paragraphs) : paragraph ⊆ joinParagraphs paragraphs := by
  induction paragraphs with
  | nil => cases h
  | cons first others ih =>
      intro line hline
      cases others with
      | nil =>
          obtain rfl := List.mem_singleton.mp h
          exact hline
      | cons second others =>
          have hjoin : joinParagraphs (first :: second :: others) =
              first ++ "" :: joinParagraphs (second :: others) := rfl
          rw [hjoin, List.mem_append]
          rcases List.mem_cons.mp h with rfl | h
          · exact .inl hline
          · exact .inr (List.mem_cons_of_mem _ (ih h hline))

theorem mem_sectionLines {title : String} {paragraph : List String}
    {paragraphs : List (List String)} (h : paragraph ∈ paragraphs) :
    paragraph ⊆ sectionLines title paragraphs :=
  mem_joinParagraphs (List.mem_cons_of_mem _ h)

/-- A stub is written in both functions of its converter. -/
theorem ConverterPair.shows_of_stub? {p : ConverterPair} {construct : String}
    (h : p.rule.stub? = some construct) : Shows (throwNotImplemented construct) p.lines := by
  have hrule : p.rule = .stub construct := by
    cases hp : p.rule <;> rw [hp] at h <;> cases h
    rfl
  have hbody : Shows (throwNotImplemented construct) (p.rule.toNativeLines p.native) := by
    rw [hrule]
    exact .behind "return " List.mem_cons_self
  refine hbody.deeper.mono ?_
  intro line hline
  simp [ConverterPair.lines, functionLines, hline]

theorem Callback.shows_of_mem_stubs {c : Callback} {construct : String}
    (h : construct ∈ c.body.stubs) : Shows (throwNotImplemented construct) c.lines := by
  refine (Block.shows_of_mem_stubs h).deeper.mono ?_
  intro line hline
  simp [Callback.lines, hline]

namespace BindingUnit

variable {u : BindingUnit} {construct : String}

theorem exists_mem_converterSections {p : ConverterPair} {pairs : List ConverterPair}
    (title : ConverterPair → String) (hp : p ∈ pairs) :
    ∃ lines ∈ converterSections title pairs, p.lines ⊆ lines :=
  ⟨_, List.mem_map_of_mem hp, mem_sectionLines List.mem_cons_self⟩

theorem exists_mem_sections_of_typedef {p : ConverterPair} (hp : p ∈ u.typedefs) :
    ∃ lines ∈ u.sections, p.lines ⊆ lines := by
  obtain ⟨lines, hlines, hsub⟩ := exists_mem_converterSections _ hp
  refine ⟨lines, ?_, hsub⟩
  simp only [sections, List.mem_append]
  iterate 6 apply Or.inl
  exact .inr hlines

theorem exists_mem_sections_of_dictionary {p : ConverterPair} (hp : p ∈ u.dictionaries) :
    ∃ lines ∈ u.sections, p.lines ⊆ lines := by
  obtain ⟨lines, hlines, hsub⟩ := exists_mem_converterSections _ hp
  refine ⟨lines, ?_, hsub⟩
  simp only [sections, List.mem_append]
  iterate 4 apply Or.inl
  exact .inr hlines

theorem exists_mem_sections_of_callback {b : InterfaceBinding} {c : Callback}
    (hb : b ∈ u.interfaces) (hc : c ∈ b.callbacks) : ∃ lines ∈ u.sections, c.lines ⊆ lines := by
  have hparagraph : c.lines ∈ b.paragraphs := by
    simp only [InterfaceBinding.paragraphs, List.mem_append, List.mem_cons, List.mem_map]
    exact .inl (.inr ⟨c, hc, rfl⟩)
  refine ⟨sectionLines ("Interface `" ++ b.name ++ "`") b.paragraphs, ?_,
    mem_sectionLines hparagraph⟩
  simp only [sections, List.mem_append]
  iterate 2 apply Or.inl
  exact .inr (List.mem_map_of_mem hb)

/-- **Every construct that a unit reports is named by a line that throws.** -/
theorem infix_of_mem_unsupported (h : construct ∈ u.unsupported) :
    (throwNotImplemented construct).toList <:+: u.source.toList := by
  have hsection : ∃ lines ∈ u.sections, Shows (throwNotImplemented construct) lines := by
    rw [unsupported, List.mem_append, List.mem_append] at h
    rcases h with (h | h) | h
    · obtain ⟨p, hp, hstub⟩ := List.mem_filterMap.mp h
      obtain ⟨lines, hlines, hsub⟩ := exists_mem_sections_of_typedef hp
      exact ⟨lines, hlines, (p.shows_of_stub? hstub).mono hsub⟩
    · obtain ⟨p, hp, hstub⟩ := List.mem_filterMap.mp h
      obtain ⟨lines, hlines, hsub⟩ := exists_mem_sections_of_dictionary hp
      exact ⟨lines, hlines, (p.shows_of_stub? hstub).mono hsub⟩
    · obtain ⟨b, hb, h⟩ := List.mem_flatMap.mp h
      obtain ⟨c, hc, hstub⟩ := List.mem_flatMap.mp h
      obtain ⟨lines, hlines, hsub⟩ := exists_mem_sections_of_callback hb hc
      exact ⟨lines, hlines, (c.shows_of_mem_stubs hstub).mono hsub⟩
  obtain ⟨lines, hlines, hshows⟩ := hsection
  exact (hshows.mono (mem_joinParagraphs hlines)).codeText

end BindingUnit
end IdlBindings
