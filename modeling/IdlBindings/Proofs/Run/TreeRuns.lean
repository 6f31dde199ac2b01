import IdlBindings.Proofs.Run.Disks
import IdlBindings.Proofs.Run.Trees

/-!
# Runs on a tree

A tree is a disk: making directories only adds directories, a write that fails changes nothing, and
a write that succeeds puts one file. On a tree more can be told than on any disk, since its
operations fail for no other reason than what is there.

## Main definitions

* `FileTree.perform`: a run on a tree
* `FileTree.prepare`: makes the directory of a file
* `FileTree.view`: the files of a tree
-/
namespace IdlBindings

open FileTree

/-! ## Writing a file -/

namespace FileTree

variable {α : Type} {t t' : FileTree} {p q : Path} {text : String} {content : ByteArray}

/-- The result of a run and the tree that it leaves. -/
abbrev perform (t : FileTree) (action : ExceptT CompileError (StateM FileTree) α) :
    Except CompileError α × FileTree := performOn t action

theorem perform_makeDirs (t : FileTree) (p : Path) :
    performOn t (Config.access p (disk.makeDirs p)) =
      ((t.makeDirs p).1.mapError (.access p), (t.makeDirs p).2) := rfl

theorem perform_write (t : FileTree) (p : Path) (content : ByteArray) :
    performOn t (Config.access p (disk.write p content)) =
      match t.write p content with
      | .ok t' => (.ok (), t')
      | .error fault => (.error (.access p fault), t) := by
  rw [performOn_access]
  simp only [disk]
  cases t.write p content <;> rfl

/-- Makes the directory of a path, if the path names one. -/
def prepare (t : FileTree) (p : Path) : Except CompileError Unit × FileTree :=
  match p.parent? with
  | none => (.ok (), t)
  | some q =>
    if q.text ≠ "" then ((t.makeDirs q).1.mapError (.access q), (t.makeDirs q).2) else (.ok (), t)

theorem perform_writeText (t : FileTree) (p : Path) (text : String) :
    performOn t (Config.writeText disk p text) =
      match t.prepare p with
      | (.error e, t₁) => (.error e, t₁)
      | (.ok _, t₁) =>
        match t₁.write p text.toUTF8 with
        | .ok t₂ => (.ok (), t₂)
        | .error fault => (.error (.access p fault), t₁) := by
  rw [Config.writeText, prepare]
  cases p.parent? with
  | none => exact perform_write t p _
  | some q =>
      dsimp only
      by_cases hq : q.text ≠ ""
      · rw [if_pos hq, if_pos hq, performOn_bind, perform_makeDirs]
        rcases t.makeDirs q with ⟨_ | _, t₁⟩
        · rfl
        · exact perform_write t₁ p _
      · rw [if_neg hq, if_neg hq]
        exact perform_write t p _

theorem grows_prepare (t : FileTree) (p : Path) : Grows t (t.prepare p).2 := by
  rw [prepare]
  cases p.parent? with
  | none => exact .refl t
  | some q =>
      dsimp only
      by_cases hq : q.text ≠ ""
      · rw [if_pos hq]
        exact grows_makeDirs t q
      · rw [if_neg hq]
        exact .refl t

/-- There is nothing to make where the directory of a path is. -/
theorem prepare_of_isDirectory
    (h : ∀ q, p.parent? = some q → q.text ≠ "" → t.isDirectory q = true) :
    t.prepare p = (.ok (), t) := by
  rw [prepare]
  cases hparent : p.parent? with
  | none => rfl
  | some q =>
      dsimp only
      by_cases hq : q.text ≠ ""
      · rw [if_pos hq, makeDirs_of_isDirectory (h q hparent hq)]
        rfl
      · rw [if_neg hq]

theorem prepare_of_write (h : t.write p content = .ok t') : t.prepare p = (.ok (), t) := by
  obtain ⟨hwalk, hform, _⟩ := write_eq_ok_iff.mp h
  apply prepare_of_isDirectory
  intro q hparent hq
  exact isDirectory_of_parent? hform hparent hq hwalk

theorem perform_writeText_of_write (h : t.write p text.toUTF8 = .ok t') :
    performOn t (Config.writeText disk p text) = (.ok (), t') := by
  rw [perform_writeText, prepare_of_write h]
  simp only [h]

/-- A file that can be written can be written after another one. -/
theorem exists_write_of_write {other : ByteArray} {t₁ : FileTree}
    (h : t.write p content = .ok t') (hother : t.write q other = .ok t₁) :
    ∃ t₂, t'.write q other = .ok t₂ := by
  obtain ⟨_, _, _, k, _, hk, rfl⟩ := write_eq_ok_iff.mp h
  obtain ⟨hparent, hform, hslash, l, hwalk, hl, _⟩ := write_eq_ok_iff.mp hother
  have hkeeps := @keepsDirectories_set t k content hk
  refine ⟨_, write_eq_ok_iff.mpr ⟨hkeeps.walkToParent hparent, hform, hslash, l,
    hkeeps.walk hwalk, ?_, rfl⟩⟩
  rw [entry?_set (ne_nil_of_ne_directory hk)]
  split
  · simp
  · exact hl

end FileTree

/-! ## Runs -/

namespace Config

variable {t : FileTree} {c : Config}

/-- Files that can all be written are written. -/
theorem exists_perform_forM {files : List (Path × String)}
    (h : ∀ file ∈ files, ∃ t₁, t.write file.1 file.2.toUTF8 = .ok t₁) :
    ∃ t', performOn t (files.forM fun file => writeText disk file.1 file.2) = (.ok (), t') := by
  induction files generalizing t with
  | nil => exact ⟨t, rfl⟩
  | cons file files ih =>
      obtain ⟨t₁, ht₁⟩ := h file List.mem_cons_self
      rw [performOn_forM_cons, perform_writeText_of_write ht₁]
      apply ih
      intro other hother
      obtain ⟨t₂, ht₂⟩ := h other (List.mem_cons_of_mem file hother)
      exact exists_write_of_write ht₁ ht₂

end Config

/-! ## Files of a tree -/

/-- The content of a file. -/
def Entry.content? : Entry → Option ByteArray
  | file content => some content
  | directory => none

namespace FileTree

variable {t t' : FileTree} {p q : Path} {l : Location} {content : ByteArray}

/-- The files of a tree, by location. -/
def view : FileView FileTree where
  Place := Location
  place? t p := (t.walk p).toOption
  file? t l := (t.entry? l).bind Entry.content?

theorem place?_eq_some_iff : view.place? t p = some l ↔ t.walk p = .ok l := by
  simp only [view]
  cases t.walk p <;> simp [Except.toOption]

theorem file?_eq_some_iff : view.file? t l = some content ↔ t.entry? l = some (.file content) := by
  simp only [view]
  cases t.entry? l with
  | none => simp
  | some e => cases e <;> simp [Entry.content?]

theorem keepsFiles_of_grows (h : Grows t t') : view.KeepsFiles t t' where
  place _ _ hl := place?_eq_some_iff.mpr (h.keepsDirectories.walk (place?_eq_some_iff.mp hl))
  file _ := Option.ext fun _ => file?_eq_some_iff.trans (h.file_iff.trans file?_eq_some_iff.symm)

theorem puts_of_write (h : t.write p content = .ok t') : ∃ l, view.Puts t p content l t' := by
  obtain ⟨_, _, _, l, hwalk, hentry, rfl⟩ := write_eq_ok_iff.mp h
  have hkeeps := @keepsDirectories_set t l content hentry
  have hl := ne_nil_of_ne_directory hentry
  refine ⟨l, ⟨fun q k hk => ?_, ?_, ?_, fun (k : Location) (hk : k ≠ l) => Option.ext fun b => ?_⟩⟩
  · exact place?_eq_some_iff.mpr (hkeeps.walk (place?_eq_some_iff.mp hk))
  · exact place?_eq_some_iff.mpr (hkeeps.walk hwalk)
  · rw [file?_eq_some_iff, entry?_set hl, if_pos rfl]
  · rw [file?_eq_some_iff, file?_eq_some_iff, entry?_set hl, if_neg hk]

/-- **A tree is a disk.** -/
theorem disk_obeys : disk.Obeys view where
  read _ _ := rfl
  makeDirs p t := keepsFiles_of_grows (grows_makeDirs t p)
  write_error p content t fault t' h := by
    simp only [disk] at h
    split at h
    · cases h
    · cases h
      exact .refl t
  write_ok p content t t' h := by
    simp only [disk] at h
    split at h
    · next hwrite =>
        cases h
        exact puts_of_write hwrite
    · cases h

theorem target_eq_of_sameFile (h : view.SameFile t p q) : t.target p = t.target q := by
  obtain ⟨l, hp, hq⟩ := h
  exact (eq_target_of_walk (place?_eq_some_iff.mp hp)).symm.trans
    (eq_target_of_walk (place?_eq_some_iff.mp hq))

end FileTree
end IdlBindings
