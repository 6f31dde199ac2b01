import IdlBindings.Proofs.Run.TreeRuns

/-!
# Bindings are written whole or not at all

A run writes up to two files, and each of them may need directories. Whatever step fails, on
whatever disk, the file at the path of the bindings is the one that was there before, provided that
the support header has not gone there. The header is written first. Where both paths lead to one
file, a run that fails at the bindings can leave the header in their place.

## Main definitions

* `Config.Delivers`: what a run leaves that succeeds
* `FileTree.readOnly?`: a tree whose files can be made but not changed
-/
namespace IdlBindings

open FileTree

namespace Config

variable {σ : Type} {disk : Disk (StateM σ)} {v : FileView σ} {c : Config} {s s₁ s' : σ}
  {source : String}

/-! ## Outputs -/

theorem isFileName_supportHeaderName : Path.IsFileName supportHeaderName :=
  ⟨by decide, by decide, by decide, by decide⟩

/-- The files of a run are there, and no file has changed but them. -/
structure Delivers (c : Config) (v : FileView σ) (source : String) (written : List Path)
    (s s' : σ) : Prop where
  bindings : v.fileAt? s' c.outputPath = some source.toUTF8
  header : c.writeSupportHeader = true → ¬v.SameFile s' c.headerPath c.outputPath →
    v.fileAt? s' c.headerPath = some supportHeader.toUTF8
  written_eq :
    written = (if c.writeSupportHeader then [c.headerPath] else []) ++ [c.outputPath]
  others : ∀ l, (∀ p ∈ written, v.place? s' p ≠ some l) → v.file? s' l = v.file? s l

theorem map_fst_outputs (c : Config) (source : String) :
    (c.outputs source).map Prod.fst =
      (if c.writeSupportHeader then [c.headerPath] else []) ++ [c.outputPath] := by
  rw [outputs, List.map_append]
  cases c.writeSupportHeader <;> simp

theorem outputs_of_header (hflag : c.writeSupportHeader = true) (source : String) :
    c.outputs source = [(c.headerPath, supportHeader), (c.outputPath, source)] := by
  simp [outputs, hflag]

theorem delivers_of_holds (h : v.Holds s (c.outputs source) s') :
    c.Delivers v source ((c.outputs source).map Prod.fst) s s' where
  bindings := by
    obtain ⟨l, hl, hfile⟩ := h.written _ (c.outputPath, source) [] rfl
    exact FileView.fileAt?_eq_some_iff.mpr ⟨l, hl, hfile (by simp)⟩
  header hflag hdistinct := by
    obtain ⟨l, hl, hfile⟩ := h.written [] (c.headerPath, supportHeader) [(c.outputPath, source)]
      (outputs_of_header hflag source)
    simp only [List.forall_mem_singleton] at hl hfile
    have hother : v.place? s' c.outputPath ≠ some l := fun hsame => hdistinct ⟨l, hl, hsame⟩
    exact FileView.fileAt?_eq_some_iff.mpr ⟨l, hl, hfile hother⟩
  written_eq := map_fst_outputs c source
  others l hl := h.others l fun file hfile => hl file.1 (List.mem_map_of_mem hfile)

/-- Nothing but the support header is written before a file that fails. -/
theorem eq_headerPath_of_mem_before {before after : List (Path × String)} {file : Path × String}
    (h : c.outputs source = before ++ file :: after) :
    ∀ other ∈ before, c.writeSupportHeader = true ∧ other.1 = c.headerPath := by
  intro other hother
  have hmem : other ∈ (c.outputs source).dropLast := by
    rw [h, List.dropLast_append_cons]
    exact List.mem_append_left _ hother
  rw [outputs, List.dropLast_concat] at hmem
  split at hmem
  · next hflag =>
      refine ⟨hflag, ?_⟩
      rw [List.mem_singleton.mp hmem]
  · cases hmem

/-- **All files or the old bindings.** -/
theorem performOn_outputs_cases (h : disk.Obeys v) (c : Config) (source : String) (s : σ) :
    (∃ s', performOn s ((c.outputs source).forM fun file => writeText disk file.1 file.2) =
        (.ok (), s') ∧ c.Delivers v source ((c.outputs source).map Prod.fst) s s') ∨
      ∃ e s', performOn s ((c.outputs source).forM fun file => writeText disk file.1 file.2) =
          (.error e, s') ∧
        (∃ file ∈ c.outputs source, disk.Refuses file s' e) ∧
        ((c.writeSupportHeader = true → ¬v.SameFile s' c.headerPath c.outputPath) →
          v.KeepsFileAt s s' c.outputPath) := by
  rcases performOn_forM_cases h (c.outputs source) s with
    ⟨s', hrun, hholds⟩ | ⟨e, s', before, file, after, hrun, hsplit, hholds, hrefuses⟩
  · exact .inl ⟨s', hrun, delivers_of_holds hholds⟩
  · refine .inr ⟨e, s', hrun, ⟨file, by simp [hsplit], hrefuses⟩, fun hdistinct => ?_⟩
    apply hholds.keepsFileAt
    intro other hother
    obtain ⟨hflag, hpath⟩ := eq_headerPath_of_mem_before hsplit other hother
    rw [hpath]
    exact hdistinct hflag

/-! ## Runs -/

theorem performOn_generateSource (h : disk.Obeys v) (c : Config) (s : σ) :
    performOn s (c.generateSource disk) = ((c.generationOn disk s).map Generation.source, s) := by
  rw [generateSource, performOn_map, performOn_run h.read]

/-- **Compiling is all or nothing.** A run that does not write leaves the state as it is, and so
does one that fails before it writes. One that fails later fails because the disk refuses a file,
and it leaves the file at the path of the bindings as it was unless the support header has gone
there. One that succeeds leaves the bindings there, and changes no file but those it names. -/
theorem compile_all_or_nothing (h : disk.Obeys v) (c : Config) (s : σ) :
    (performOn s (c.check disk)).2 = s ∧
      (performOn s (c.generateSource disk)).2 = s ∧
      (∀ e, (performOn s (c.generateSource disk)).1 = .error e →
        performOn s (c.compile disk) = (.error e, s)) ∧
      (∀ source e s', (performOn s (c.generateSource disk)).1 = .ok source →
        performOn s (c.compile disk) = (.error e, s') →
        ∃ file ∈ c.outputs source, disk.Refuses file s' e) ∧
      (∀ e s', performOn s (c.compile disk) = (.error e, s') →
        (c.writeSupportHeader = true → ¬v.SameFile s' c.headerPath c.outputPath) →
        v.KeepsFileAt s s' c.outputPath) ∧
      ∀ summary s', performOn s (c.compile disk) = (.ok summary, s') →
        ∃ source, (performOn s (c.generateSource disk)).1 = .ok source ∧
          c.Delivers v source summary.written s s' := by
  rw [performOn_generateSource h, check, performOn_map, performOn_run h.read,
    performOn_compile h.read]
  cases c.generationOn disk s with
  | error e =>
      refine ⟨rfl, rfl, ?_, ?_, ?_, ?_⟩
      · rintro e' ⟨⟩
        rfl
      · rintro source e' s' ⟨⟩
      · rintro e' s' ⟨⟩ _
        exact (FileView.Holds.nil (.refl s)).keepsFileAt (by simp)
      · rintro summary s' ⟨⟩
  | ok g =>
      dsimp only
      rcases performOn_outputs_cases h c g.source s with
        ⟨s₁, hrun, hdelivers⟩ | ⟨e, s₁, hrun, hrefuses, hkeeps⟩ <;> rw [hrun] <;>
        refine ⟨rfl, rfl, ?_, ?_, ?_, ?_⟩
      · rintro e ⟨⟩
      · rintro source e s' _ ⟨⟩
      · rintro e s' ⟨⟩
      · rintro summary s' ⟨⟩
        exact ⟨g.source, rfl, hdelivers⟩
      · rintro e' ⟨⟩
      · rintro source e' s' ⟨⟩ ⟨⟩
        exact hrefuses
      · rintro e' s' ⟨⟩
        exact hkeeps
      · rintro summary s' ⟨⟩

/-! ## Files that cannot be changed -/

/-- A file without a directory in its path. -/
theorem performOn_writeText_of_parent {p : Path} (hparent : p.parent? = some ⟨""⟩)
    (text : String) :
    performOn s (writeText disk p text) =
      ((disk.write p text.toUTF8 s).1.mapError (.access p), (disk.write p text.toUTF8 s).2) := by
  rw [writeText, hparent]
  exact performOn_access s p _

/-- The support header is written, and the bindings are refused. -/
theorem performOn_compile_of_refused {p q : Path} {g : Generation} {fault : AccessFault}
    (hread : ∀ p s, (disk.read p s).2 = s) (hg : c.generationOn disk s = .ok g)
    (hflag : c.writeSupportHeader = true) (hpaths : c.headerPath = p ∧ c.outputPath = q)
    (hparents : p.parent? = some ⟨""⟩ ∧ q.parent? = some ⟨""⟩)
    (hheader : disk.write p supportHeader.toUTF8 s = (.ok (), s₁))
    (hbindings : disk.write q g.source.toUTF8 s₁ = (.error fault, s')) :
    performOn s (c.compile disk) = (.error (.access q fault), s') := by
  rw [performOn_compile hread, hg]
  dsimp only
  rw [outputs_of_header hflag, hpaths.1, hpaths.2, performOn_forM_cons,
    performOn_writeText_of_parent hparents.1, hheader]
  dsimp only [Except.mapError]
  rw [performOn_forM_cons, performOn_writeText_of_parent hparents.2, hbindings]
  rfl

/-- On a tree, both files are one only if their paths say the same. -/
theorem saysSame_of_sameFile {t : FileTree} (h : view.SameFile t c.headerPath c.outputPath) :
    c.headerPath.SaysSame c.outputPath :=
  saysSame_of_target_eq isFileName_supportHeaderName (target_eq_of_sameFile h).symm

end Config

/-- What is said of a file that is there and may not be changed. -/
def FileTree.readOnly? (t : FileTree) (p : Path) : Option AccessFault :=
  match t.read p with
  | .ok _ => some (.other "Permission denied (os error 13)")
  | .error _ => none

namespace Config

/-- An empty document, and bindings from an earlier run. -/
def boundTree : FileTree := ⟨[(["a.idl"], .file "".toUTF8), (["a.cc"], .file "old".toUTF8)], []⟩

/-- A run on that document that writes the support header too. -/
def boundConfig : Config :=
  { input := ⟨"a.idl"⟩, format := some .idl, writeSupportHeader := true }

theorem compile_all_or_nothing_bound :
    (FileTree.disk.guarded readOnly?).Obeys view ∧
      ∃ e t', performOn boundTree (boundConfig.compile (FileTree.disk.guarded readOnly?)) =
          (.error e, t') ∧
        view.fileAt? t' ⟨"webidl-napi.h"⟩ = some supportHeader.toUTF8 ∧
        ¬view.SameFile t' boundConfig.headerPath boundConfig.outputPath ∧
        view.KeepsFileAt boundTree t' boundConfig.outputPath := by
  have hobeys := disk_obeys.guarded readOnly?
  have hpaths : boundConfig.headerPath = ⟨"webidl-napi.h"⟩ ∧
      boundConfig.outputPath = ⟨"a.cc"⟩ := by decide
  obtain ⟨g, hg⟩ : ∃ g, boundConfig.generate "" = .ok g := ⟨_, rfl⟩
  have hrun : performOn boundTree (boundConfig.compile (FileTree.disk.guarded readOnly?)) =
      (.error (.access ⟨"a.cc"⟩ (.other "Permission denied (os error 13)")),
        boundTree.set ["webidl-napi.h"] (.file supportHeader.toUTF8)) :=
    performOn_compile_of_refused hobeys.read (generationOn_eq_ok_iff.mpr ⟨_, _, rfl, rfl, hg⟩) rfl
      hpaths (by decide) rfl rfl
  have hdistinct : ¬view.SameFile (boundTree.set ["webidl-napi.h"] (.file supportHeader.toUTF8))
      boundConfig.headerPath boundConfig.outputPath := fun hsame =>
    absurd (saysSame_of_sameFile hsame) (by rw [hpaths.1, hpaths.2]; decide)
  obtain ⟨_, _, _, _, hkeeps, _⟩ := compile_all_or_nothing hobeys boundConfig boundTree
  exact ⟨hobeys, _, _, hrun, rfl, hdistinct, hkeeps _ _ hrun fun _ => hdistinct⟩

/-- An empty document, alone. -/
def freshTree : FileTree := ⟨[(["a.idl"], .file "".toUTF8)], []⟩

/-- An empty document, and bindings from an earlier run that have the name of the support header. -/
def headedTree : FileTree :=
  ⟨[(["a.idl"], .file "".toUTF8), (["webidl-napi.h"], .file "old".toUTF8)], []⟩

/-- A run that writes the support header, and the bindings to a path of their own. -/
def headedConfig (output : String) : Config :=
  { input := ⟨"a.idl"⟩, output := some ⟨output⟩, format := some .idl, writeSupportHeader := true }

/-- **A failed run can leave the header in place of the bindings.** Both go to one file, and the
disk takes the header and refuses the bindings: because it lets no file be changed, or because of a
slash behind the name, which the path of the header does not have. -/
theorem header_in_place_of_bindings :
    ((FileTree.disk.guarded readOnly?).Obeys view ∧
      ∃ e t', performOn freshTree ((headedConfig "webidl-napi.h").compile
          (FileTree.disk.guarded readOnly?)) = (.error e, t') ∧
        view.fileAt? freshTree ⟨"webidl-napi.h"⟩ = none ∧
        view.fileAt? t' ⟨"webidl-napi.h"⟩ = some supportHeader.toUTF8) ∧
      ∃ e t', performOn headedTree ((headedConfig "webidl-napi.h/").compile FileTree.disk) =
          (.error e, t') ∧
        view.fileAt? headedTree ⟨"webidl-napi.h/"⟩ = some "old".toUTF8 ∧
        view.fileAt? t' ⟨"webidl-napi.h/"⟩ = some supportHeader.toUTF8 ∧
        supportHeader.toUTF8 ≠ "old".toUTF8 := by
  have hobeys := disk_obeys.guarded readOnly?
  have hpaths : ∀ output ∈ ["webidl-napi.h", "webidl-napi.h/"],
      (headedConfig output).headerPath = ⟨"webidl-napi.h"⟩ ∧
        (headedConfig output).outputPath = ⟨output⟩ := by decide
  refine ⟨⟨hobeys, ?_⟩, ?_⟩
  · obtain ⟨g, hg⟩ : ∃ g, (headedConfig "webidl-napi.h").generate "" = .ok g := ⟨_, rfl⟩
    have hrun : performOn freshTree ((headedConfig "webidl-napi.h").compile
        (FileTree.disk.guarded readOnly?)) =
          (.error (.access ⟨"webidl-napi.h"⟩ (.other "Permission denied (os error 13)")),
            freshTree.set ["webidl-napi.h"] (.file supportHeader.toUTF8)) :=
      performOn_compile_of_refused hobeys.read (generationOn_eq_ok_iff.mpr ⟨_, _, rfl, rfl, hg⟩) rfl
        (hpaths _ (by simp)) (by decide) rfl rfl
    exact ⟨_, _, hrun, rfl, rfl⟩
  · obtain ⟨g, hg⟩ : ∃ g, (headedConfig "webidl-napi.h/").generate "" = .ok g := ⟨_, rfl⟩
    have hrun : performOn headedTree ((headedConfig "webidl-napi.h/").compile FileTree.disk) =
        (.error (.access ⟨"webidl-napi.h/"⟩ .isDirectory),
          headedTree.set ["webidl-napi.h"] (.file supportHeader.toUTF8)) :=
      performOn_compile_of_refused disk_obeys.read (generationOn_eq_ok_iff.mpr ⟨_, _, rfl, rfl, hg⟩)
        rfl (hpaths _ (by simp)) (by decide) rfl rfl
    have hne : supportHeader ≠ "old" := by decide +kernel
    exact ⟨_, _, hrun, rfl, rfl, fun h => hne (String.toByteArray_inj.mp h)⟩

end Config
end IdlBindings
