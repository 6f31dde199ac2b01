import IdlBindings.Proofs.Run.AllOrNothing

/-!
# Running twice

A run that succeeds can be repeated: its directories are there, its files can be overwritten, and as
long as none of them is the document, the document still says the same. The second run then puts
every file where it already is. Two files may even share a place, where the second replaces the
first in both runs.

## Main definitions

* `FileTree.Writable`: a file can be written where a path leads
* `FileTree.putAll`: a tree with files put where their paths lead
-/
namespace IdlBindings

open FileTree

namespace FileTree

variable {t t' : FileTree} {l k : Location} {p : Path} {e e' : Entry} {content : ByteArray}
  {file : Path × String} {files : List (Path × String)}

/-! ## Entries that are set again -/

theorem putEntry_of_lookup {entries : List (Location × Entry)} (h : entries.lookup l = some e) :
    putEntry l e entries = entries := by
  induction entries with
  | nil => cases h
  | cons entry rest ih =>
      obtain ⟨key, old⟩ := entry
      rw [lookup_cons_eq] at h
      by_cases hkey : l = key
      · subst hkey
        obtain rfl : old = e := by simpa using h
        simp [putEntry]
      · rw [if_neg hkey] at h
        rw [putEntry, if_neg (Ne.symm hkey), ih h]

theorem putEntry_putEntry (entries : List (Location × Entry)) :
    putEntry l e (putEntry l e' entries) = putEntry l e entries := by
  induction entries with
  | nil => simp [putEntry]
  | cons entry rest ih =>
      obtain ⟨key, old⟩ := entry
      by_cases hkey : key = l
      · simp [putEntry, hkey]
      · simp [putEntry, hkey, ih]

/-- The order does not matter if one of the locations has its place already. -/
theorem putEntry_comm {entries : List (Location × Entry)} (hlk : l ≠ k)
    (hl : entries.lookup l ≠ none) :
    putEntry k e' (putEntry l e entries) = putEntry l e (putEntry k e' entries) := by
  induction entries with
  | nil => exact absurd rfl hl
  | cons entry rest ih =>
      obtain ⟨key, old⟩ := entry
      by_cases hkey : key = l
      · subst hkey
        simp [putEntry, hlk]
      · rw [lookup_cons_eq, if_neg (Ne.symm hkey)] at hl
        by_cases hkey' : key = k
        · subst hkey'
          simp [putEntry, hkey]
        · simp [putEntry, hkey, hkey', ih hl]

theorem set_eq_self (hl : l ≠ []) (h : t.entry? l = some e) : t.set l e = t := by
  rw [entry?_of_ne_nil hl] at h
  rw [set, putEntry_of_lookup h]

theorem set_set : (t.set l e').set l e = t.set l e := by
  simp [set, putEntry_putEntry]

theorem set_comm (hlk : l ≠ k) (hl : t.entries.lookup l ≠ none) :
    (t.set l e).set k e' = (t.set k e').set l e := by
  simp [set, putEntry_comm hlk hl]

/-! ## Places where files can be written -/

/-- A file can be written where the path leads. -/
structure Writable (t : FileTree) (p : Path) : Prop where
  parent : t.walkToParent p = .ok ()
  form : namesDirectory p = false
  no_slash : endsInSlash p = false
  walk_eq : t.walk p = .ok (t.target p)
  free : t.entry? (t.target p) ≠ some .directory

theorem target_set : (t.set l e).target p = t.target p := rfl

theorem KeepsDirectories.target_eq (h : KeepsDirectories t t') : t'.target p = t.target p := by
  rw [target, target, h.start_eq]

theorem write_eq_ok_iff_writable :
    t.write p content = .ok t' ↔ t.Writable p ∧ t.set (t.target p) (.file content) = t' := by
  rw [write_eq_ok_iff]
  constructor
  · rintro ⟨hparent, hform, hslash, l, hwalk, hfree, ht'⟩
    obtain rfl := eq_target_of_walk hwalk
    exact ⟨⟨hparent, hform, hslash, hwalk, hfree⟩, ht'⟩
  · rintro ⟨h, ht'⟩
    exact ⟨h.parent, h.form, h.no_slash, _, h.walk_eq, h.free, ht'⟩

/-- What is writable stays so while directories are kept and none takes the place. -/
theorem Writable.of_keepsDirectories (h : t.Writable p) (hkeeps : KeepsDirectories t t')
    (hfree : t'.entry? (t.target p) ≠ some .directory) : t'.Writable p where
  parent := hkeeps.walkToParent h.parent
  form := h.form
  no_slash := h.no_slash
  walk_eq := by
    rw [hkeeps.target_eq]
    exact hkeeps.walk h.walk_eq
  free := by rwa [hkeeps.target_eq]

theorem Writable.set (h : t.Writable p) (hl : t.entry? l ≠ some .directory) :
    (t.set l (.file content)).Writable p := by
  refine h.of_keepsDirectories (keepsDirectories_set hl) ?_
  rw [entry?_set (ne_nil_of_ne_directory hl)]
  split
  · simp
  · exact h.free

/-! ## Files in order -/

/-- The tree with files put where their paths lead, one after the other. -/
def putAll : FileTree → List (Path × String) → FileTree
  | t, [] => t
  | t, file :: files => (t.set (t.target file.1) (.file file.2.toUTF8)).putAll files

/-- What is put at a location does not matter if one of the files replaces it. -/
theorem putAll_set (hl : t.entries.lookup l ≠ none)
    (hlater : ∃ file ∈ files, t.target file.1 = l) : (t.set l e).putAll files = t.putAll files := by
  induction files generalizing t with
  | nil => simp at hlater
  | cons file files ih =>
      rw [putAll, putAll, target_set]
      by_cases hfile : t.target file.1 = l
      · rw [hfile, set_set]
      · obtain ⟨other, hother, htarget⟩ := hlater
        have hmem : other ∈ files := by
          rcases List.mem_cons.mp hother with rfl | hmem
          · exact absurd htarget hfile
          · exact hmem
        rw [set_comm (Ne.symm hfile) hl]
        refine ih ?_ ⟨other, hmem, htarget⟩
        simpa [set, lookup_putEntry, Ne.symm hfile] using hl

/-- What is left of a tree when files have been written: a file stands in every place and can be
written again, no other file is lost, and putting the files where they are changes nothing. -/
structure Leaves (t : FileTree) (files : List (Path × String)) (t' : FileTree) : Prop where
  keeps : KeepsDirectories t t'
  writable : ∀ file ∈ files, t'.Writable file.1
  placed : ∀ file ∈ files, ∃ b, t'.entry? (t'.target file.1) = some (.file b)
  kept : ∀ k b, t.entry? k = some (.file b) →
    t'.entry? k = some (.file b) ∨ ∃ file ∈ files, t'.target file.1 = k
  settled : t'.putAll files = t'

theorem Leaves.nil (t : FileTree) : Leaves t [] t :=
  ⟨⟨rfl, fun _ h => h⟩, by simp, by simp, fun _ _ h => .inl h, rfl⟩

/-- A file is written once its directory is there. -/
theorem exists_write_of_perform {text : String}
    (h : performOn t (Config.writeText disk p text) = (.ok (), t')) :
    ∃ t₁, Grows t t₁ ∧ t₁.write p text.toUTF8 = .ok t' := by
  have hgrows := grows_prepare t p
  rw [perform_writeText] at h
  revert h hgrows
  rcases t.prepare p with ⟨_ | _, t₁⟩
  · simp
  · intro h hgrows
    refine ⟨t₁, hgrows, ?_⟩
    dsimp only at h
    cases hwrite : t₁.write p text.toUTF8 with
    | error fault =>
        rw [hwrite] at h
        cases h
    | ok t₂ =>
        rw [hwrite] at h
        cases h
        rfl

/-- One more file in front: later files may take its place, and then the last of them counts in both
runs. -/
theorem Leaves.cons {t₁ : FileTree}
    (h : performOn t (Config.writeText disk file.1 file.2) = (.ok (), t₁))
    (hrest : Leaves t₁ files t') : Leaves t (file :: files) t' := by
  obtain ⟨t₀, hgrows, hwrite⟩ := exists_write_of_perform h
  obtain ⟨hwritable, rfl⟩ := write_eq_ok_iff_writable.mp hwrite
  have hset := @keepsDirectories_set t₀ (t₀.target file.1) file.2.toUTF8 hwritable.free
  have hne := ne_nil_of_ne_directory hwritable.free
  have hkeeps := hset.trans hrest.keeps
  have htarget : t'.target file.1 = t₀.target file.1 := hkeeps.target_eq
  have hcases := hrest.kept (t₀.target file.1) file.2.toUTF8 (by rw [entry?_set hne, if_pos rfl])
  have hplaced : ∃ b, t'.entry? (t₀.target file.1) = some (.file b) := by
    rcases hcases with hfile | ⟨other, hother, hsame⟩
    · exact ⟨_, hfile⟩
    · rw [← hsame]
      exact hrest.placed other hother
  obtain ⟨b, hb⟩ := hplaced
  refine ⟨hgrows.keepsDirectories.trans hkeeps, ?_, ?_, ?_, ?_⟩
  · rw [List.forall_mem_cons]
    exact ⟨hwritable.of_keepsDirectories hkeeps (by simp [hb]), hrest.writable⟩
  · rw [List.forall_mem_cons, htarget]
    exact ⟨⟨b, hb⟩, hrest.placed⟩
  · intro k old hk
    by_cases hkl : k = t₀.target file.1
    · exact .inr ⟨file, List.mem_cons_self, htarget.trans hkl.symm⟩
    · have hk₁ : entry? (t₀.set (t₀.target file.1) (.file file.2.toUTF8)) k =
          some (.file old) := by
        rw [entry?_set hne, if_neg hkl]
        exact hgrows.keeps k _ hk
      exact (hrest.kept k old hk₁).imp_right fun ⟨other, hother, hsame⟩ =>
        ⟨other, List.mem_cons_of_mem file hother, hsame⟩
  · rw [putAll, htarget]
    rcases hcases with hfile | hlater
    · rw [set_eq_self hne hfile, hrest.settled]
    · have hlookup : t'.entries.lookup (t₀.target file.1) ≠ none := by
        rw [entry?_of_ne_nil hne] at hb
        simp [hb]
      rw [putAll_set hlookup hlater, hrest.settled]

theorem leaves_of_perform_forM
    (h : performOn t (files.forM fun file => Config.writeText disk file.1 file.2) = (.ok (), t')) :
    Leaves t files t' := by
  induction files generalizing t with
  | nil =>
      cases h
      exact .nil _
  | cons file files ih =>
      rw [Config.performOn_forM_cons] at h
      rcases hfile : performOn t (Config.writeText disk file.1 file.2) with ⟨_ | _, t₁⟩
      · simp [hfile] at h
      · rw [hfile] at h
        exact .cons hfile (ih h)

end FileTree

/-! ## Runs -/

namespace Config

variable {t t' : FileTree} {c : Config} {summary : Summary}

/-- What a run that succeeds has read, made of it and written. -/
structure Succeeds (c : Config) (t : FileTree) (summary : Summary) (t' : FileTree)
    (bytes : ByteArray) (text : String) (g : Generation) : Prop where
  read_eq : t.read c.input = .ok bytes
  text_eq : String.fromUTF8? bytes = some text
  generate_eq : c.generate text = .ok g
  perform_eq : performOn t ((c.outputs g.source).forM fun file => writeText disk file.1 file.2) =
    (.ok (), t')
  summary_eq : summary = { g.summary with written := (c.outputs g.source).map Prod.fst }

theorem exists_succeeds (h : performOn t (c.compile disk) = (.ok summary, t')) :
    ∃ bytes text g, c.Succeeds t summary t' bytes text g := by
  rw [performOn_compile disk_obeys.read] at h
  cases hg : c.generationOn disk t with
  | error e => simp [hg] at h
  | ok g =>
      rw [hg] at h
      dsimp only at h
      rcases hrun : performOn t ((c.outputs g.source).forM fun file => writeText disk file.1 file.2)
        with ⟨_ | _, t₁⟩
      · rw [hrun] at h
        cases h
      · rw [hrun] at h
        cases h
        obtain ⟨bytes, text, hread, htext, hgenerate⟩ := generationOn_eq_ok_iff.mp hg
        exact ⟨bytes, text, g, hread, htext, hgenerate, hrun, rfl⟩

/-- A run is told by what it reads and what it writes. -/
theorem perform_compile_of_read {bytes : ByteArray} {text : String} {g : Generation}
    (hread : t.read c.input = .ok bytes) (htext : String.fromUTF8? bytes = some text)
    (hgenerate : c.generate text = .ok g)
    (hrun : performOn t ((c.outputs g.source).forM fun file => writeText disk file.1 file.2) =
      (.ok (), t')) :
    performOn t (c.compile disk) =
      (.ok { g.summary with written := (c.outputs g.source).map Prod.fst }, t') := by
  rw [performOn_compile disk_obeys.read,
    generationOn_eq_ok_iff.mpr ⟨bytes, text, hread, htext, hgenerate⟩]
  dsimp only
  rw [hrun]

/-- A file that the run does not name is read as before. -/
theorem read_of_leaves {files : List (Path × String)} {p : Path} {bytes : ByteArray}
    (h : Leaves t files t') (hread : t.read p = .ok bytes)
    (hother : ∀ file ∈ files, t'.walk file.1 ≠ t'.walk p) : t'.read p = .ok bytes := by
  obtain ⟨l, hwalk, hentry, hslash⟩ := read_eq_ok_iff.mp hread
  have hwalk' := h.keeps.walk hwalk
  refine read_eq_ok_iff.mpr ⟨l, hwalk', ?_, hslash⟩
  rcases h.kept l bytes hentry with hkept | ⟨file, hfile, htarget⟩
  · exact hkept
  · have hsame := (h.writable file hfile).walk_eq
    rw [htarget, ← hwalk'] at hsame
    exact absurd hsame (hother file hfile)

end Config
end IdlBindings
