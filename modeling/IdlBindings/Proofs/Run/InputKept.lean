import IdlBindings.Proofs.Run.Extensions
import IdlBindings.Proofs.Run.GeneratedText
import IdlBindings.Proofs.Run.Recompiling

/-!
# Documents that survive

Without a path for the output, a run writes next to the document: the bindings under the name of the
document with the extension `cc`, and the support header under its own name. Neither path is
compared with that of the document, so a document with one of these names is replaced. Every other
document is left as it is. Since generated code is no document, one that is replaced never happens
to stay the same.
-/
namespace IdlBindings

open FileTree

namespace FileTree

variable {t : FileTree} {p q : Path} {a b : ByteArray}

/-- Paths that lead to one location read one content. -/
theorem eq_of_target_eq (hp : t.read p = .ok a) (hq : view.fileAt? t q = some b)
    (h : t.target p = t.target q) : a = b := by
  obtain ⟨l, hwalk, hentry, _⟩ := read_eq_ok_iff.mp hp
  obtain ⟨k, hplace, hfile⟩ := FileView.fileAt?_eq_some_iff.mp hq
  have hlk : l = k := by
    rw [eq_target_of_walk hwalk, eq_target_of_walk (place?_eq_some_iff.mp hplace), h]
  rw [hlk, file?_eq_some_iff.mp hfile] at hentry
  cases hentry
  rfl

end FileTree

theorem Path.IsFileName.renamed_cc {x : String} (hx : IsFileName x) :
    IsFileName ((splitName x).1 ++ "." ++ "cc") := hx.renamed (by decide) (by decide)

namespace Config

variable {c : Config} {t t' : FileTree} {summary : Summary} {bytes : ByteArray} {text : String}
  {g : Generation}

/-! ## Where the outputs are -/

/-- If the bindings can be written, they are beside the document, with another extension. -/
theorem exists_beside (hout : c.output = none) (hread : t.read c.input = .ok bytes)
    (hform : namesDirectory c.outputPath = false) :
    ∃ x, Path.IsFileName x ∧ c.input.fileName? = some x ∧
      c.input.Beside c.outputPath x ((Path.splitName x).1 ++ "." ++ "cc") := by
  have hpath : c.outputPath = c.input.withExtension "cc" := by
    rw [outputPath, hout, Option.getD_none]
  rw [hpath] at hform ⊢
  obtain ⟨before, front, x, hends, hblank⟩ := exists_endsIn_of_read hread
  have hup : x ≠ ".." := by
    rintro rfl
    rw [hends.withExtension_up, namesDirectory_of_endsIn hends] at hform
    cases hform
  have hx : Path.IsFileName x := by
    have hne : x ≠ "" ∧ x ≠ "." := by simpa [Path.isBlankPiece] using hblank
    exact ⟨hends.no_slash, hne.1, hne.2, hup⟩
  refine ⟨x, hx, by rw [hends.fileName?_eq hblank, if_neg hup], ?_⟩
  rcases hends.withExtension_cases hx hx.renamed_cc with hparent | hbeside
  · rw [namesDirectory_of_endsIn hparent] at hform
    cases hform
  · exact hbeside

theorem target_outputPath_iff {x : String} (hx : Path.IsFileName x)
    (hname : c.input.fileName? = some x)
    (hbeside : c.input.Beside c.outputPath x ((Path.splitName x).1 ++ "." ++ "cc")) :
    t.target c.input = t.target c.outputPath ↔ c.input.extension? = some "cc" := by
  rw [target_eq_iff_of_beside hbeside hx hx.renamed_cc, eq_comm, Path.renamed_eq_iff,
    Path.extension?, hname, Option.bind_some]

theorem target_headerPath_iff {x y : String} (hx : Path.IsFileName x)
    (hname : c.input.fileName? = some x) (hbeside : c.input.Beside c.outputPath x y) :
    t.target c.input = t.target c.headerPath ↔ c.input.fileName? = some supportHeaderName := by
  have hheader : c.input.Beside c.headerPath x supportHeaderName :=
    hbeside.sibling isFileName_supportHeaderName
  rw [target_eq_iff_of_beside hheader hx isFileName_supportHeaderName, hname, Option.some.injEq]

/-! ## What is read after a run -/

theorem mem_outputs_iff {file : Path × String} {source : String} :
    file ∈ c.outputs source ↔
      (c.writeSupportHeader = true ∧ file = (c.headerPath, supportHeader)) ∨
        file = (c.outputPath, source) := by
  cases hflag : c.writeSupportHeader <;> simp [outputs, hflag]

theorem Succeeds.delivers (h : c.Succeeds t summary t' bytes text g) :
    c.Delivers view g.source ((c.outputs g.source).map Prod.fst) t t' :=
  delivers_of_holds (holds_of_performOn_forM disk_obeys h.perform_eq)

/-- A text that was written is the text that is read. -/
theorem eq_of_fromUTF8? {s : String} (htext : String.fromUTF8? bytes = some text)
    (hbytes : bytes = s.toUTF8) : text = s := by
  subst hbytes
  have hvalid : s.toUTF8.IsValidUTF8 := s.isValidUTF8
  rw [String.fromUTF8?, dif_pos hvalid] at htext
  exact (Option.some.inj htext).symm

/-- **Outputs are no documents.** What a run that succeeds writes differs from what it has read. -/
theorem Succeeds.bytes_ne (h : c.Succeeds t summary t' bytes text g) :
    bytes ≠ g.source.toUTF8 ∧ bytes ≠ supportHeader.toUTF8 := by
  have hgenerate := h.generate_eq
  constructor
  · intro hbytes
    rw [eq_of_fromUTF8? h.text_eq hbytes] at hgenerate
    exact generate_source_ne_ok h.generate_eq g hgenerate
  · intro hbytes
    rw [eq_of_fromUTF8? h.text_eq hbytes] at hgenerate
    exact hasDirective_supportHeader.generate_ne_ok c g hgenerate

/-- **Which documents survive.** Without a path for the output, a run that succeeds leaves its
document as it is exactly if it does not have the extension of bindings and, where the support
header is written, not the name of that. -/
theorem input_kept_iff (c : Config) (t t' : FileTree) (summary : Summary) (hout : c.output = none)
    (h : t.perform (c.compile disk) = (.ok summary, t')) :
    t'.read c.input = t.read c.input ↔
      c.input.extension? ≠ some "cc" ∧
        ¬(c.writeSupportHeader = true ∧ c.input.fileName? = some supportHeaderName) := by
  obtain ⟨bytes, text, g, hrun⟩ := exists_succeeds h
  have hdelivers := hrun.delivers
  have hleaves := leaves_of_perform_forM hrun.perform_eq
  have hform := (hleaves.writable _ (mem_outputs_iff.mpr (.inr rfl))).form
  obtain ⟨x, hx, hname, hbeside⟩ := exists_beside hout hrun.read_eq hform
  have hbindings := @target_outputPath_iff c t' x hx hname hbeside
  have hheader := @target_headerPath_iff c t' x _ hx hname hbeside
  rw [hrun.read_eq]
  constructor
  · intro hkept
    constructor
    · intro hext
      have hsame := hbindings.mpr hext
      exact hrun.bytes_ne.1 (eq_of_target_eq hkept hdelivers.bindings hsame)
    · rintro ⟨hflag, hfile⟩
      -- The header has another extension, so the bindings do not replace it.
      have hdistinct : ¬view.SameFile t' c.headerPath c.outputPath := by
        intro hsame
        have hext := hbindings.mp ((hheader.mpr hfile).trans (target_eq_of_sameFile hsame))
        rw [Path.extension?, hfile] at hext
        revert hext
        decide
      have hcontent := hdelivers.header hflag hdistinct
      have hbytes := eq_of_target_eq hkept hcontent (hheader.mpr hfile)
      exact hrun.bytes_ne.2 hbytes
  · rintro ⟨hext, hfile⟩
    refine read_of_leaves hleaves hrun.read_eq ?_
    intro file hmem hwalk
    have hsame : t'.target c.input = t'.target file.1 := by
      rw [(hleaves.writable file hmem).walk_eq] at hwalk
      exact (eq_target_of_walk hwalk.symm).symm
    rcases mem_outputs_iff.mp hmem with ⟨hflag, heq⟩ | heq
    · have hpath : file.1 = c.headerPath := by rw [heq]
      rw [hpath] at hsame
      exact hfile ⟨hflag, hheader.mp hsame⟩
    · have hpath : file.1 = c.outputPath := by rw [heq]
      rw [hpath] at hsame
      exact hext (hbindings.mp hsame)

/-- A run with the support header, on a document whose name is none of the outputs. -/
def plainConfig : Config :=
  { input := ⟨"a.idl"⟩, format := some .idl, writeSupportHeader := true }

theorem perform_plain_outputs (source : String) :
    ∃ t', performOn freshTree ((plainConfig.outputs source).forM fun file =>
      writeText disk file.1 file.2) = (.ok (), t') := by
  have hpaths : plainConfig.headerPath = ⟨"webidl-napi.h"⟩ ∧ plainConfig.outputPath = ⟨"a.cc"⟩ := by
    decide
  have hheader : ∀ content, ∃ t', freshTree.write ⟨"webidl-napi.h"⟩ content = .ok t' :=
    fun content => ⟨freshTree.set ["webidl-napi.h"] (.file content), rfl⟩
  have hbindings : ∀ content, ∃ t', freshTree.write ⟨"a.cc"⟩ content = .ok t' :=
    fun content => ⟨freshTree.set ["a.cc"] (.file content), rfl⟩
  apply exists_perform_forM
  intro file hfile
  rw [mem_outputs_iff, hpaths.1, hpaths.2] at hfile
  rcases hfile with ⟨_, hfile⟩ | hfile
  · rw [hfile]
    exact hheader _
  · rw [hfile]
    exact hbindings _

theorem input_kept_iff_plain :
    ∃ summary t', freshTree.perform (plainConfig.compile disk) = (.ok summary, t') ∧
      plainConfig.output = none ∧ t'.read plainConfig.input = freshTree.read plainConfig.input := by
  obtain ⟨g, hg⟩ : ∃ g, plainConfig.generate "" = .ok g := ⟨_, rfl⟩
  obtain ⟨t', hperform⟩ := perform_plain_outputs g.source
  have hrun := perform_compile_of_read rfl rfl hg hperform
  exact ⟨_, t', hrun, rfl,
    (input_kept_iff plainConfig freshTree t' _ rfl hrun).mpr ⟨by decide, by decide⟩⟩

/-- An empty document with the extension of bindings, alone. -/
def swappedTree : FileTree := ⟨[(["a.cc"], .file "".toUTF8)], []⟩

def swappedConfig : Config := { input := ⟨"a.cc"⟩, format := some .idl }

/-- A document with the extension of bindings is replaced by its bindings. -/
theorem document_replaced :
    swappedConfig.output = none ∧
      ∃ summary t', swappedTree.perform (swappedConfig.compile disk) = (.ok summary, t') ∧
        t'.read swappedConfig.input ≠ swappedTree.read swappedConfig.input := by
  obtain ⟨g, hg⟩ : ∃ g, swappedConfig.generate "" = .ok g := ⟨_, rfl⟩
  have hpath : swappedConfig.outputPath = ⟨"a.cc"⟩ := by decide
  have hwrite : ∀ content, ∃ t', swappedTree.write ⟨"a.cc"⟩ content = .ok t' :=
    fun content => ⟨swappedTree.set ["a.cc"] (.file content), rfl⟩
  obtain ⟨t', hperform⟩ : ∃ t', performOn swappedTree ((swappedConfig.outputs g.source).forM
      fun file => writeText disk file.1 file.2) = (.ok (), t') := by
    apply exists_perform_forM
    intro file hfile
    have hflag : swappedConfig.writeSupportHeader ≠ true := by decide
    rw [mem_outputs_iff, hpath] at hfile
    rw [hfile.resolve_left fun h => hflag h.1]
    exact hwrite _
  have hread : swappedTree.read swappedConfig.input = .ok "".toUTF8 := rfl
  have hrun : swappedConfig.Succeeds swappedTree _ t' "".toUTF8 "" g :=
    ⟨hread, rfl, hg, hperform, rfl⟩
  refine ⟨rfl, _, t', perform_compile_of_read hread rfl hg hperform, ?_⟩
  intro hkept
  have hbindings := hrun.delivers.bindings
  rw [hpath] at hbindings
  rw [hread] at hkept
  exact hrun.bytes_ne.1 (eq_of_target_eq hkept hbindings rfl)

end Config
end IdlBindings
