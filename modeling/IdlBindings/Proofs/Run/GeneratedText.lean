import IdlBindings.Proofs.Model.Interleaving
import IdlBindings.Proofs.Run.Paths
import IdlBindings.Proofs.Token.Stray

/-!
# Generated code is no document

What a run writes cannot be read as a document in either format. A unit starts with a comment of one
line and goes on with the line of a header, and the support header starts with its guard: in both, a
`#` stands at the start of a line and outside of comments, where a text of definitions has none. A
tree starts with a bracket, which neither has.

## Main definitions

* `HasDirective`: a text with a `#` at the start of a line, outside of comments
-/
namespace IdlBindings

variable {text : String} {cs : List Char}

/-! ## Texts of trees -/

theorem TreeReader.bind_eq_ok_iff {α β : Type} {x : TreeReader α} {f : α → TreeReader β}
    {r : β × List Char} :
    (x >>= f) cs = .ok r ↔ ∃ a rest, x cs = .ok (a, rest) ∧ f a rest = .ok r := by
  have hbind : (x >>= f) cs = x cs >>= fun y => f y.1 y.2 := rfl
  rw [hbind, IdlBindings.bind_eq_ok_iff, Prod.exists]

/-- A value of the wrong shape is rejected in any case. -/
theorem readMismatch_ne_ok {α : Type} (size : Nat) (expected : Expected) (r : α × List Char) :
    readMismatch size expected cs ≠ .ok r := by
  intro h
  rw [readMismatch, TreeReader.bind_eq_ok_iff] at h
  obtain ⟨next, rest, _, h⟩ := h
  split at h
  · cases h
  · cases h
  · rw [TreeReader.bind_eq_ok_iff] at h
    obtain ⟨value, rest', _, h⟩ := h
    cases h

/-- The text of a tree starts with a bracket. -/
theorem readDocument_ne_ok {c : Char} (size : Nat) (hc : cs.head? = some c)
    (hspace : Json.isSpace c = false) (hopen : c ≠ '[') (r : List DefinitionNode × List Char) :
    readDocument size cs ≠ .ok r := by
  intro h
  rw [readDocument, TreeReader.bind_eq_ok_iff] at h
  obtain ⟨next, rest, hnext, h⟩ := h
  have hnext : next = some c := by
    cases cs with
    | nil => cases hc
    | cons d cs =>
        cases hc
        cases hnext
        simp [hspace]
  split at h
  · exact hopen (Option.some.inj hnext).symm
  · exact readMismatch_ne_ok _ _ _ h

/-! ## Texts that are no documents -/

/-- The text has a `#` at the start of a line that is not in a comment, and starts with no bracket.
-/
structure HasDirective (text : String) : Prop where
  line : ∃ before after, text.toList = before ++ '#' :: after ∧ StartsLine before ∧
    ¬['/', '*'] <:+: before
  start : text.toList.head? = some '/' ∨ text.toList.head? = some '#'

theorem HasDirective.parse_ne_ok (h : HasDirective text) (format : SourceFormat) (file : Path)
    (definitions : List Definition) : format.parse text file ≠ .ok definitions := by
  cases format with
  | idl =>
      obtain ⟨before, after, htext, hline, hcomment⟩ := h.line
      intro hparse
      rw [SourceFormat.parse, Definition.listOfText] at hparse
      cases hlex : TokenStream.ofText text with
      | error e =>
          rw [hlex] at hparse
          cases hparse
      | ok stream => exact ofText_ne_ok_of_isStray htext (by decide) hline hcomment stream hlex
  | json =>
      have hread : ∀ r, readDocument text.toList.length text.toList ≠ .ok r := by
        rcases h.start with hstart | hstart
        · exact readDocument_ne_ok _ hstart (by decide) (by decide)
        · exact readDocument_ne_ok _ hstart (by decide) (by decide)
      intro hparse
      rw [SourceFormat.parse, Definition.listOfTree, DefinitionNode.listOfText] at hparse
      cases hdocument : readDocument text.toList.length text.toList with
      | error e =>
          rw [hdocument] at hparse
          cases hparse
      | ok r => exact hread r hdocument

theorem HasDirective.generate_ne_ok (h : HasDirective text) (c : Config) (g : Generation) :
    c.generate text ≠ .ok g := by
  intro hg
  obtain ⟨model, hmodel⟩ := exists_model_of_generate hg
  rw [Model.ofSource, bind_eq_ok_iff] at hmodel
  obtain ⟨definitions, hparse, _⟩ := hmodel
  exact h.parse_ne_ok _ _ _ hparse

/-! ## Texts that runs write -/

theorem toList_codeText_cons (line : String) (lines : List String) :
    (codeText (line :: lines)).toList = line.toList ++ '\n' :: (codeText lines).toList := by
  simp [codeText, String.join_cons]

theorem hasDirective_supportHeader : HasDirective supportHeader := by
  obtain ⟨lines, hlines⟩ : ∃ lines, supportHeader = codeText ("#ifndef WEBIDL_NAPI_H_" :: lines) :=
    ⟨_, rfl⟩
  have hguard : "#ifndef WEBIDL_NAPI_H_".toList = '#' :: "ifndef WEBIDL_NAPI_H_".toList := rfl
  have htext := toList_codeText_cons "#ifndef WEBIDL_NAPI_H_" lines
  rw [← hlines, hguard, List.cons_append] at htext
  exact ⟨⟨[], _, htext, by simp [StartsLine], by simp⟩, .inr (by rw [htext]; rfl)⟩

theorem exists_joinParagraphs_cons (p : List String) (ps : List (List String)) :
    ∃ more, joinParagraphs (p :: ps) = p ++ more := by
  cases ps with
  | nil => exact ⟨[], (List.append_nil p).symm⟩
  | cons q qs => exact ⟨_, rfl⟩

/-- A slash and a star that follow each other are not in a text with no slash but two at its start.
-/
theorem not_infix_of_notMem {rest : List Char} (h : '/' ∉ rest) (hstar : rest.head? ≠ some '*') :
    ¬['/', '*'] <:+: '/' :: '/' :: rest := by
  rw [List.infix_cons_iff, List.infix_cons_iff]
  rintro (hstart | hstart | hrest)
  · simp at hstart
  · cases rest with
    | nil => simp at hstart
    | cons c rest =>
        obtain ⟨_, hc⟩ : '/' = '/' ∧ '*' = c := by simpa using hstart
        exact hstar (congrArg some hc.symm)
  · exact h (hrest.subset (by simp))

/-- Where the comment at the top says that the unit is from. -/
def originText : Option String → String
  | some name => " from " ++ name
  | none => ""

theorem notMem_originText {source : Option String} (h : ∀ name ∈ source, '/' ∉ name.toList) :
    '/' ∉ (originText source).toList := by
  cases source with
  | none => simp [originText]
  | some name => simp [originText, h name rfl]

/-- The comment at the top opens no comment of many lines. -/
theorem exists_comment_eq {source : Option String} (h : ∀ name ∈ source, '/' ∉ name.toList) :
    ∃ comment, ("// Generated by napidl" ++ originText source ++ ". Do not edit.").toList =
      '/' :: '/' :: comment ∧ '/' ∉ comment ∧ comment.head? = some ' ' := by
  refine ⟨(" Generated by napidl" ++ originText source ++ ". Do not edit.").toList, by simp, ?_,
    by simp⟩
  simp [notMem_originText h]

/-- A unit starts with a comment, an empty line and the line of a header. -/
theorem prologueLines_eq (o : UnitOptions) :
    BindingUnit.prologueLines o =
      ("// Generated by napidl" ++ originText o.sourceName ++ ". Do not edit.") :: "" ::
        ("#include " ++ cString o.napiHeader) ::
          ((supportHeaderName :: o.extraIncludes).map (fun h => "#include " ++ cString h) ++
            [""]) := rfl

theorem hasDirective_source (u : BindingUnit)
    (hname : ∀ name ∈ u.options.sourceName, '/' ∉ name.toList) : HasDirective u.source := by
  obtain ⟨sections, hsections⟩ : ∃ sections,
      u.sections = BindingUnit.prologueLines u.options :: sections := ⟨_, rfl⟩
  obtain ⟨more, hmore⟩ :=
    exists_joinParagraphs_cons (BindingUnit.prologueLines u.options) sections
  obtain ⟨comment, hcomment, hclear, hhead⟩ := exists_comment_eq hname
  obtain ⟨after, hafter⟩ : ∃ after, u.source.toList =
      ('/' :: '/' :: comment ++ ['\n'] ++ ['\n']) ++ '#' :: after := by
    rw [BindingUnit.source, hsections, hmore, prologueLines_eq]
    simp only [List.cons_append, toList_codeText_cons, hcomment]
    simp
  have hclosed : ¬['/', '*'] <:+: '/' :: '/' :: comment ++ ['\n'] ++ ['\n'] := by
    rw [List.append_assoc]
    refine not_infix_of_notMem (by simp [hclear]) ?_
    simp [List.head?_append, hhead]
  have hline : StartsLine ('/' :: '/' :: comment ++ ['\n'] ++ ['\n']) := by
    intro c hc
    rw [List.getLast?_concat] at hc
    exact (Option.some.inj hc).symm
  exact ⟨⟨_, after, hafter, hline, hclosed⟩, .inl (by rw [hafter]; rfl)⟩

/-- **What a run makes of a document is no document.** -/
theorem Config.generate_source_ne_ok {c : Config} {g : Generation}
    (h : c.generate text = .ok g) (g' : Generation) : c.generate g.source ≠ .ok g' := by
  have hdirective : HasDirective g.source := by
    rw [Config.generate, bind_eq_ok_iff] at h
    obtain ⟨model, _, h⟩ := h
    rw [bind_eq_ok_iff] at h
    obtain ⟨warnings, _, h⟩ := h
    have hsource : g.source = (BindingUnit.ofModel model c.unitOptions).source := by
      rw [← pure_eq_ok_iff.mp h]
    rw [hsource]
    refine hasDirective_source _ ?_
    intro name hname
    have hfile : c.input.fileName? = some name := hname
    obtain ⟨hlast, _⟩ := Option.filter_eq_some_iff.mp hfile
    obtain ⟨blanks, hpieces, _⟩ := Path.exists_pieces_body c.input
    apply @Path.notMem_of_mem_pieces c.input
    rw [hpieces]
    simp [List.mem_of_getLast? hlast]
  exact hdirective.generate_ne_ok c g'

end IdlBindings
