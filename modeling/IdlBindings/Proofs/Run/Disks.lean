import IdlBindings.Compile

/-!
# Disks that may fail

A run knows files only through the operations of a disk, and each of these may fail at any time, for
reasons that have nothing to do with what is there: no room, no permission, a lost connection. A
disk is here any machine with a state, and little is known of it. Reading changes nothing. Making
directories leaves all files alone, and so does a write that fails. A write that succeeds puts its
content into the file at its path and into no other.

Which file a path leads to is for the machine to say. Two paths may lead to one file, by their
spelling or by a link.

## Main definitions

* `performOn`: a run on a machine in some state
* `FileView`: the files that there are in a state
* `FileView.KeepsFiles`, `FileView.Puts`, `FileView.Holds`: what is left of the files when none is
  written, when one is, and when several are
* `Disk.Obeys`: what is known of a disk
* `Disk.Refuses`: why a file could not be written
-/
namespace IdlBindings

variable {σ α β : Type}

/-! ## Runs -/

/-- The result of a run and the state that it leaves. -/
def performOn (s : σ) (action : ExceptT CompileError (StateM σ) α) : Except CompileError α × σ :=
  action.run.run s

theorem performOn_bind (s : σ) (action : ExceptT CompileError (StateM σ) α)
    (next : α → ExceptT CompileError (StateM σ) β) :
    performOn s (action >>= next) =
      match performOn s action with
      | (.ok a, s') => performOn s' (next a)
      | (.error e, s') => (.error e, s') := by
  change (match action s with | (r, s') => ExceptT.bindCont next r s') = _
  rw [show action s = performOn s action from rfl]
  rcases performOn s action with ⟨_ | a, s'⟩ <;> rfl

theorem performOn_map (s : σ) (f : α → β) (action : ExceptT CompileError (StateM σ) α) :
    performOn s (f <$> action) = ((performOn s action).1.map f, (performOn s action).2) := by
  rw [map_eq_pure_bind, performOn_bind]
  rcases performOn s action with ⟨_ | _, _⟩ <;> rfl

theorem performOn_access (s : σ) (p : Path) (operation : StateM σ (Except AccessFault α)) :
    performOn s (Config.access p operation) =
      ((operation s).1.mapError (.access p), (operation s).2) := rfl

/-! ## Files -/

/-- The files that there are in a state of a machine. A path leads to at most one place, and in a
place there is at most one regular file. -/
structure FileView (σ : Type) where
  Place : Type
  place? : σ → Path → Option Place
  file? : σ → Place → Option ByteArray

namespace FileView

variable (v : FileView σ)

/-- The regular file at a path. -/
def fileAt? (s : σ) (p : Path) : Option ByteArray := (v.place? s p).bind (v.file? s)

/-- Two paths lead to one place. -/
def SameFile (s : σ) (p q : Path) : Prop := ∃ l, v.place? s p = some l ∧ v.place? s q = some l

/-- No file is changed, made or lost, and paths still lead where they led. -/
structure KeepsFiles (s s' : σ) : Prop where
  place : ∀ p l, v.place? s p = some l → v.place? s' p = some l
  file : ∀ l, v.file? s' l = v.file? s l

/-- The file at a path has a content, and no other file is changed, made or lost. -/
structure Puts (s : σ) (p : Path) (content : ByteArray) (l : v.Place) (s' : σ) : Prop where
  place : ∀ q k, v.place? s q = some k → v.place? s' q = some k
  leads : v.place? s' p = some l
  holds : v.file? s' l = some content
  others : ∀ k ≠ l, v.file? s' k = v.file? s k

/-- Files have been written in order. The last one in a place is there, and no file in another place
is changed, made or lost. -/
structure Holds (s : σ) (files : List (Path × String)) (s' : σ) : Prop where
  place : ∀ p l, v.place? s p = some l → v.place? s' p = some l
  written : ∀ before file after, files = before ++ file :: after →
    ∃ l, v.place? s' file.1 = some l ∧
      ((∀ other ∈ after, v.place? s' other.1 ≠ some l) → v.file? s' l = some file.2.toUTF8)
  others : ∀ l, (∀ file ∈ files, v.place? s' file.1 ≠ some l) → v.file? s' l = v.file? s l

/-- The file that a path leads to is the one that was there, whatever else has changed. -/
structure KeepsFileAt (s s' : σ) (p : Path) : Prop where
  /-- A file that was there is still there, with its content. -/
  kept : ∀ b, v.fileAt? s p = some b → v.fileAt? s' p = some b
  /-- A file that is there is not new. -/
  not_new : ∀ b, v.fileAt? s' p = some b → ∃ l, v.place? s' p = some l ∧ v.file? s l = some b

variable {v} {s s₁ s' : σ} {p : Path} {content : ByteArray} {l : v.Place}
  {file : Path × String} {files : List (Path × String)}

theorem fileAt?_eq_some_iff :
    v.fileAt? s p = some content ↔ ∃ l, v.place? s p = some l ∧ v.file? s l = some content :=
  Option.bind_eq_some_iff

theorem KeepsFiles.refl (s : σ) : v.KeepsFiles s s := ⟨fun _ _ h => h, fun _ => rfl⟩

theorem KeepsFiles.trans (h : v.KeepsFiles s s₁) (h' : v.KeepsFiles s₁ s') : v.KeepsFiles s s' where
  place p l hl := h'.place p l (h.place p l hl)
  file l := (h'.file l).trans (h.file l)

theorem Puts.of_keepsFiles (h : v.KeepsFiles s s₁) (hputs : v.Puts s₁ p content l s') :
    v.Puts s p content l s' where
  place q k hk := hputs.place q k (h.place q k hk)
  leads := hputs.leads
  holds := hputs.holds
  others k hk := (hputs.others k hk).trans (h.file k)

theorem Holds.nil (h : v.KeepsFiles s s') : v.Holds s [] s' where
  place := h.place
  written before file after hfiles := by simp at hfiles
  others l _ := h.file l

/-- One more file in front. The files behind it may take its place. -/
theorem Holds.cons (hputs : v.Puts s file.1 file.2.toUTF8 l s₁) (h : v.Holds s₁ files s') :
    v.Holds s (file :: files) s' where
  place q k hk := h.place q k (hputs.place q k hk)
  written before other after hfiles := by
    cases before with
    | nil =>
        obtain ⟨rfl, rfl⟩ : file = other ∧ files = after := by simpa using hfiles
        refine ⟨l, h.place _ _ hputs.leads, fun hafter => ?_⟩
        rw [h.others l hafter, hputs.holds]
    | cons first before =>
        obtain ⟨_, hfiles⟩ : file = first ∧ files = before ++ other :: after := by
          simpa using hfiles
        exact h.written before other after hfiles
  others k hk := by
    rw [List.forall_mem_cons] at hk
    have hne : k ≠ l := by
      rintro rfl
      exact hk.1 (h.place _ _ hputs.leads)
    rw [h.others k hk.2, hputs.others k hne]

/-- The file at a path is kept if no file has been written there. -/
theorem Holds.keepsFileAt (h : v.Holds s files s')
    (hother : ∀ file ∈ files, ¬v.SameFile s' file.1 p) : v.KeepsFileAt s s' p := by
  have hfile : ∀ l, v.place? s' p = some l → v.file? s' l = v.file? s l := by
    intro l hl
    exact h.others l fun file hmem hplace => hother file hmem ⟨l, hplace, hl⟩
  constructor
  · intro b hb
    obtain ⟨l, hl, hb⟩ := fileAt?_eq_some_iff.mp hb
    have hl' := h.place p l hl
    exact fileAt?_eq_some_iff.mpr ⟨l, hl', by rw [hfile l hl', hb]⟩
  · intro b hb
    obtain ⟨l, hl, hb⟩ := fileAt?_eq_some_iff.mp hb
    exact ⟨l, hl, by rw [← hfile l hl, hb]⟩

end FileView

/-! ## Operations -/

namespace Disk

/-- What is known of a disk. -/
structure Obeys (disk : Disk (StateM σ)) (v : FileView σ) : Prop where
  read : ∀ p s, (disk.read p s).2 = s
  makeDirs : ∀ p s, v.KeepsFiles s (disk.makeDirs p s).2
  write_error : ∀ p content s fault s', disk.write p content s = (.error fault, s') →
    v.KeepsFiles s s'
  write_ok : ∀ p content s s', disk.write p content s = (.ok (), s') → ∃ l, v.Puts s p content l s'

/-- The disk has just failed to write a text to a path, or to make the directory for it. -/
inductive Refuses (disk : Disk (StateM σ)) (file : Path × String) (s' : σ) : CompileError → Prop
  | write {s : σ} {fault : AccessFault}
      (h : disk.write file.1 file.2.toUTF8 s = (.error fault, s')) :
      Refuses disk file s' (.access file.1 fault)
  | makeDirs {parent : Path} {s : σ} {fault : AccessFault} (hparent : file.1.parent? = some parent)
      (h : disk.makeDirs parent s = (.error fault, s')) :
      Refuses disk file s' (.access parent fault)

/-- The disk, with more writes that fail. -/
def guarded (disk : Disk (StateM σ)) (refuses? : σ → Path → Option AccessFault) :
    Disk (StateM σ) where
  read := disk.read
  makeDirs := disk.makeDirs
  write p content := fun s =>
    match refuses? s p with
    | some fault => (.error fault, s)
    | none => disk.write p content s

namespace Obeys

variable {disk : Disk (StateM σ)} {v : FileView σ} {s s' : σ}

theorem guarded (h : disk.Obeys v) (refuses? : σ → Path → Option AccessFault) :
    (disk.guarded refuses?).Obeys v where
  read := h.read
  makeDirs := h.makeDirs
  write_error p content s fault s' hwrite := by
    simp only [Disk.guarded] at hwrite
    split at hwrite
    · cases hwrite
      exact .refl s
    · exact h.write_error p content s fault s' hwrite
  write_ok p content s s' hwrite := by
    simp only [Disk.guarded] at hwrite
    split at hwrite
    · cases hwrite
    · exact h.write_ok p content s s' hwrite

/-- A write puts the file, or keeps all files. -/
theorem write_cases (h : disk.Obeys v) (s : σ) (file : Path × String) :
    (∃ l s', performOn s (Config.access file.1 (disk.write file.1 file.2.toUTF8)) = (.ok (), s') ∧
        v.Puts s file.1 file.2.toUTF8 l s') ∨
      ∃ e s', performOn s (Config.access file.1 (disk.write file.1 file.2.toUTF8)) =
        (.error e, s') ∧ v.KeepsFiles s s' ∧ disk.Refuses file s' e := by
  rw [performOn_access]
  rcases hwrite : disk.write file.1 file.2.toUTF8 s with ⟨fault | _, s'⟩
  · exact .inr ⟨_, s', rfl, h.write_error _ _ s fault s' hwrite, .write hwrite⟩
  · obtain ⟨l, hputs⟩ := h.write_ok _ _ s s' hwrite
    exact .inl ⟨l, s', rfl, hputs⟩

/-- **One file.** Writing a text puts the file, or fails and keeps all files. -/
theorem writeText_cases (h : disk.Obeys v) (s : σ) (file : Path × String) :
    (∃ l s', performOn s (Config.writeText disk file.1 file.2) = (.ok (), s') ∧
        v.Puts s file.1 file.2.toUTF8 l s') ∨
      ∃ e s', performOn s (Config.writeText disk file.1 file.2) = (.error e, s') ∧
        v.KeepsFiles s s' ∧ disk.Refuses file s' e := by
  rw [Config.writeText]
  cases hparent : file.1.parent? with
  | none => exact h.write_cases s file
  | some q =>
      dsimp only
      by_cases hq : q.text ≠ ""
      · have hkeeps := h.makeDirs q s
        rw [if_pos hq, performOn_bind, performOn_access]
        rcases hdirs : disk.makeDirs q s with ⟨fault | _, s₁⟩ <;> rw [hdirs] at hkeeps
        · exact .inr ⟨_, s₁, rfl, hkeeps, .makeDirs hparent hdirs⟩
        · rcases h.write_cases s₁ file with
            ⟨l, s', hrun, hputs⟩ | ⟨e, s', hrun, hkeeps', hrefuses⟩
          · exact .inl ⟨l, s', hrun, hputs.of_keepsFiles hkeeps⟩
          · exact .inr ⟨e, s', hrun, hkeeps.trans hkeeps', hrefuses⟩
      · rw [if_neg hq]
        exact h.write_cases s file

end Obeys
end Disk

/-! ## Several files -/

namespace Config

theorem performOn_forM_cons (disk : Disk (StateM σ)) (s : σ) (file : Path × String)
    (files : List (Path × String)) :
    performOn s ((file :: files).forM fun file => writeText disk file.1 file.2) =
      match performOn s (writeText disk file.1 file.2) with
      | (.ok _, s') => performOn s' (files.forM fun file => writeText disk file.1 file.2)
      | (.error e, s') => (.error e, s') := by
  rw [List.forM_eq_forM, List.forM_cons, performOn_bind]
  rcases performOn s (writeText disk file.1 file.2) with ⟨_ | _, _⟩ <;> rfl

/-- **Several files.** Either all of them are written, or those before one that the disk refuses. -/
theorem performOn_forM_cases {disk : Disk (StateM σ)} {v : FileView σ} (h : disk.Obeys v)
    (files : List (Path × String)) (s : σ) :
    (∃ s', performOn s (files.forM fun file => writeText disk file.1 file.2) = (.ok (), s') ∧
        v.Holds s files s') ∨
      ∃ e s' before file after,
        performOn s (files.forM fun file => writeText disk file.1 file.2) = (.error e, s') ∧
          files = before ++ file :: after ∧ v.Holds s before s' ∧ disk.Refuses file s' e := by
  induction files generalizing s with
  | nil => exact .inl ⟨s, rfl, .nil (.refl s)⟩
  | cons file files ih =>
      rw [performOn_forM_cons]
      rcases h.writeText_cases s file with
        ⟨l, s₁, hrun, hputs⟩ | ⟨e, s', hrun, hkeeps, hrefuses⟩
      · rw [hrun]
        rcases ih s₁ with
          ⟨s', hrest, hholds⟩ | ⟨e, s', before, other, after, hrest, rfl, hholds, hrefuses⟩
        · exact .inl ⟨s', hrest, .cons hputs hholds⟩
        · exact .inr ⟨e, s', file :: before, other, after, hrest, rfl, .cons hputs hholds, hrefuses⟩
      · rw [hrun]
        exact .inr ⟨e, s', [], file, files, rfl, rfl, .nil hkeeps, hrefuses⟩

theorem holds_of_performOn_forM {disk : Disk (StateM σ)} {v : FileView σ} (h : disk.Obeys v)
    {files : List (Path × String)} {s s' : σ}
    (hrun : performOn s (files.forM fun file => writeText disk file.1 file.2) = (.ok (), s')) :
    v.Holds s files s' := by
  rcases performOn_forM_cases h files s with ⟨s₁, hok, hholds⟩ | ⟨e, s₁, _, _, _, herror, _⟩
  · rw [hrun] at hok
    cases hok
    exact hholds
  · rw [hrun] at herror
    cases herror

/-! ## Documents -/

/-- What the document gives that is there in a state. -/
def generationOn (c : Config) (disk : Disk (StateM σ)) (s : σ) : Except CompileError Generation :=
  (performOn s (c.run disk)).1

/-- It is told by what is read. -/
theorem generationOn_eq_ok_iff {c : Config} {disk : Disk (StateM σ)} {s : σ} {g : Generation} :
    c.generationOn disk s = .ok g ↔
      ∃ bytes text, (disk.read c.input s).1 = .ok bytes ∧ String.fromUTF8? bytes = some text ∧
        c.generate text = .ok g := by
  rw [generationOn, run, performOn_bind, readText, performOn_bind, performOn_access]
  rcases disk.read c.input s with ⟨fault | bytes, s'⟩
  · exact ⟨nofun, nofun⟩
  · dsimp only [Except.mapError]
    cases htext : String.fromUTF8? bytes with
    | none =>
        refine ⟨nofun, ?_⟩
        rintro ⟨_, text, ⟨⟩, hsome, _⟩
        rw [htext] at hsome
        cases hsome
    | some text =>
        refine ⟨fun h => ⟨bytes, text, rfl, htext, h⟩, ?_⟩
        rintro ⟨_, text', ⟨⟩, hsome, hgenerate⟩
        obtain rfl := Option.some.inj (htext.symm.trans hsome)
        exact hgenerate

theorem performOn_run {disk : Disk (StateM σ)} (hread : ∀ p s, (disk.read p s).2 = s) (c : Config)
    (s : σ) : performOn s (c.run disk) = (c.generationOn disk s, s) := by
  refine Prod.ext rfl ?_
  have hsame := hread c.input s
  rw [run, performOn_bind, readText, performOn_bind, performOn_access]
  revert hsame
  rcases disk.read c.input s with ⟨fault | bytes, s'⟩
  · rintro rfl
    rfl
  · rintro rfl
    dsimp only [Except.mapError]
    cases String.fromUTF8? bytes <;> rfl

/-- A run is told by the document and by its writes. -/
theorem performOn_compile {disk : Disk (StateM σ)} (hread : ∀ p s, (disk.read p s).2 = s)
    (c : Config) (s : σ) :
    performOn s (c.compile disk) =
      match c.generationOn disk s with
      | .error e => (.error e, s)
      | .ok g =>
        match performOn s ((c.outputs g.source).forM fun file => writeText disk file.1 file.2) with
        | (.error e, s') => (.error e, s')
        | (.ok _, s') =>
          (.ok { g.summary with written := (c.outputs g.source).map Prod.fst }, s') := by
  rw [compile, performOn_bind, performOn_run hread]
  cases c.generationOn disk s with
  | error e => rfl
  | ok g =>
      dsimp only
      rw [performOn_bind]
      rcases performOn s ((c.outputs g.source).forM fun file => writeText disk file.1 file.2) with
        ⟨_ | _, _⟩ <;> rfl

end Config
end IdlBindings
