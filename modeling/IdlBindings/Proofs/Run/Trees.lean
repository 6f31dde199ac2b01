import IdlBindings.Proofs.Model.Accepted
import IdlBindings.Proofs.Run.Paths

/-!
# What operations leave of a tree

A tree changes in two ways only: directories are added where nothing was, and a file is put where no
directory is. Both keep every directory, so a walk that has succeeded once succeeds again and leads
to the same location. Where a path leads depends on its start and its moves alone.

## Main definitions

* `FileTree.target`: the location that a path would lead to
* `FileTree.KeepsDirectories`, `FileTree.Grows`: what is left of a tree
-/
namespace IdlBindings.FileTree

variable {t t' : FileTree} {l k : Location} {p q : Path} {e : Entry} {content : ByteArray}

/-! ## Entries -/

theorem lookup_cons_eq (entries : List (Location × Entry)) :
    ((k, e) :: entries).lookup l = if l = k then some e else entries.lookup l := by
  rw [List.lookup_cons]
  by_cases h : l = k
  · simp [h]
  · have hbeq : (l == k) = false := by simpa using h
    simp [h, hbeq]

theorem lookup_putEntry (entries : List (Location × Entry)) :
    (putEntry l e entries).lookup k = if k = l then some e else entries.lookup k := by
  induction entries with
  | nil => rw [putEntry, lookup_cons_eq]
  | cons entry rest ih =>
      obtain ⟨key, old⟩ := entry
      rw [putEntry]
      by_cases hkey : key = l
      · subst hkey
        by_cases hk : k = key <;> simp [lookup_cons_eq, hk]
      · rw [if_neg hkey, lookup_cons_eq, lookup_cons_eq, ih]
        by_cases hk : k = key
        · subst hk
          simp [hkey]
        · simp [hk]

theorem entry?_of_ne_nil (hl : l ≠ []) : t.entry? l = t.entries.lookup l := if_neg hl

theorem entry?_set (hl : l ≠ []) :
    entry? (t.set l e) k = if k = l then some e else t.entry? k := by
  by_cases hk : k = []
  · subst hk
    rw [if_neg hl.symm]
    rfl
  · rw [entry?_of_ne_nil hk, entry?_of_ne_nil hk, set, lookup_putEntry]

/-! ## Walks -/

/-- Where a path starts. -/
def start (t : FileTree) (p : Path) : Location := if p.anchor = .root then [] else t.home

/-- The location that the moves of a path lead to, whatever is there. -/
def target (t : FileTree) (p : Path) : Location := p.moves.foldl step (t.start p)

theorem moves_eq_filter_steps (p : Path) : p.moves = (steps p).filter fun name => name != "." := by
  rw [steps, Path.moves, List.filter_filter]
  refine List.filter_congr fun piece _ => ?_
  simp [Path.isBlankPiece, Bool.and_comm, bne]

/-- A step to the same directory does not count. -/
theorem foldl_step_filter (names : List String) :
    (names.filter fun name => name != ".").foldl step l = names.foldl step l := by
  induction names generalizing l with
  | nil => rfl
  | cons name names ih =>
      by_cases h : name = "."
      · subst h
        simpa [step] using ih
      · have hne : (name != ".") = true := by simpa using h
        simp only [List.filter_cons, hne, if_true, List.foldl_cons, ih]

/-- One step of a walk. -/
theorem walkFrom_cons_eq_ok_iff {name : String} {names : List String} :
    t.walkFrom l (name :: names) = .ok k ↔
      t.entry? l = some .directory ∧ name.utf8ByteSize ≤ maxNameSize ∧
        t.walkFrom (step l name) names = .ok k := by
  rw [walkFrom]
  cases hentry : t.entry? l with
  | none => simp
  | some entry =>
      cases entry with
      | file content => simp
      | directory =>
          by_cases hsize : maxNameSize < name.utf8ByteSize
          · simp [hsize, Nat.not_le.mpr hsize]
          · simp [hsize, Nat.not_lt.mp hsize]

theorem walkFrom_concat_eq_ok_iff {name : String} {names : List String} :
    t.walkFrom l (names ++ [name]) = .ok k ↔
      ∃ j, t.walkFrom l names = .ok j ∧ t.entry? j = some .directory ∧
        name.utf8ByteSize ≤ maxNameSize ∧ step j name = k := by
  induction names generalizing l with
  | nil =>
      rw [List.nil_append, walkFrom_cons_eq_ok_iff]
      simp [walkFrom]
  | cons first names ih =>
      simp only [List.cons_append, walkFrom_cons_eq_ok_iff, ih]
      constructor
      · rintro ⟨hdir, hsize, j, hj, hrest⟩
        exact ⟨j, ⟨hdir, hsize, hj⟩, hrest⟩
      · rintro ⟨j, ⟨hdir, hsize, hj⟩, hrest⟩
        exact ⟨hdir, hsize, j, hj, hrest⟩

theorem eq_foldl_of_walkFrom {names : List String} (h : t.walkFrom l names = .ok k) :
    k = names.foldl step l := by
  induction names generalizing l with
  | nil => exact (Except.ok.inj h).symm
  | cons name names ih =>
      rw [walkFrom_cons_eq_ok_iff] at h
      exact ih h.2.2

theorem walkSteps_eq_ok_iff {names : List String} :
    t.walkSteps p names = .ok l ↔ pathFault? p = none ∧ t.walkFrom (t.start p) names = .ok l := by
  rw [walkSteps]
  cases pathFault? p <;> simp [start]

/-- **Walks of one path agree.** Where a path leads does not depend on what is there. -/
theorem eq_target_of_walk (h : t.walk p = .ok l) : l = t.target p := by
  rw [walk, walkSteps_eq_ok_iff] at h
  rw [eq_foldl_of_walkFrom h.2, target, moves_eq_filter_steps, foldl_step_filter]

/-! ## Changes that keep directories -/

/-- Every directory is still there. -/
structure KeepsDirectories (t t' : FileTree) : Prop where
  home_eq : t'.home = t.home
  directory : ∀ l, t.entry? l = some .directory → t'.entry? l = some .directory

theorem KeepsDirectories.trans {t'' : FileTree} (h : KeepsDirectories t t')
    (h' : KeepsDirectories t' t'') : KeepsDirectories t t'' where
  home_eq := h'.home_eq.trans h.home_eq
  directory l hl := h'.directory l (h.directory l hl)

theorem KeepsDirectories.walkFrom (h : KeepsDirectories t t') {names : List String}
    (hwalk : t.walkFrom l names = .ok k) : t'.walkFrom l names = .ok k := by
  induction names generalizing l with
  | nil => exact hwalk
  | cons name names ih =>
      rw [walkFrom_cons_eq_ok_iff] at hwalk ⊢
      exact ⟨h.directory l hwalk.1, hwalk.2.1, ih hwalk.2.2⟩

theorem KeepsDirectories.start_eq (h : KeepsDirectories t t') : t'.start p = t.start p := by
  simp [start, h.home_eq]

theorem KeepsDirectories.walk (h : KeepsDirectories t t') (hwalk : t.walk p = .ok l) :
    t'.walk p = .ok l := by
  rw [FileTree.walk, walkSteps_eq_ok_iff] at hwalk ⊢
  rw [h.start_eq]
  exact ⟨hwalk.1, h.walkFrom hwalk.2⟩

/-- Nothing is lost, and what is new is a directory. -/
structure Grows (t t' : FileTree) : Prop where
  home_eq : t'.home = t.home
  keeps : ∀ l e, t.entry? l = some e → t'.entry? l = some e
  adds : ∀ l content, t'.entry? l = some (.file content) → t.entry? l = some (.file content)

namespace Grows

theorem refl (t : FileTree) : Grows t t := ⟨rfl, fun _ _ h => h, fun _ _ h => h⟩

theorem trans {t'' : FileTree} (h : Grows t t') (h' : Grows t' t'') : Grows t t'' where
  home_eq := h'.home_eq.trans h.home_eq
  keeps l e he := h'.keeps l e (h.keeps l e he)
  adds l content he := h.adds l content (h'.adds l content he)

theorem keepsDirectories (h : Grows t t') : KeepsDirectories t t' :=
  ⟨h.home_eq, fun l => h.keeps l .directory⟩

theorem file_iff (h : Grows t t') :
    t'.entry? l = some (.file content) ↔ t.entry? l = some (.file content) :=
  ⟨h.adds l content, h.keeps l (.file content)⟩

end Grows

/-! ## Reading and writing -/

/-- A file is read where the path leads to it and does not ask for a directory. -/
theorem read_eq_ok_iff :
    t.read p = .ok content ↔
      ∃ l, t.walk p = .ok l ∧ t.entry? l = some (.file content) ∧ endsInSlash p = false := by
  rw [read, bind_eq_ok_iff]
  refine exists_congr fun l => and_congr_right fun _ => ?_
  cases t.entry? l with
  | none => simp [throw, throwThe, MonadExceptOf.throw]
  | some entry =>
      cases entry with
      | directory => simp [throw, throwThe, MonadExceptOf.throw]
      | file old =>
          cases endsInSlash p with
          | true => simp [throw, throwThe, MonadExceptOf.throw]
          | false => simp [pure_eq_ok_iff]

theorem walkToParent_eq_ok_iff :
    t.walkToParent p = .ok () ↔
      ∃ l, t.walkSteps p (steps p).dropLast = .ok l ∧ t.entry? l = some .directory := by
  rw [walkToParent, bind_eq_ok_iff]
  refine exists_congr fun l => and_congr_right fun _ => ?_
  cases t.entry? l with
  | none => simp [throw, throwThe, MonadExceptOf.throw]
  | some entry => cases entry <;> simp [throw, throwThe, MonadExceptOf.throw, pure, Except.pure]

theorem KeepsDirectories.walkToParent (h : KeepsDirectories t t')
    (hparent : t.walkToParent p = .ok ()) : t'.walkToParent p = .ok () := by
  rw [walkToParent_eq_ok_iff] at hparent ⊢
  obtain ⟨l, hwalk, hdir⟩ := hparent
  rw [walkSteps_eq_ok_iff] at hwalk
  refine ⟨l, walkSteps_eq_ok_iff.mpr ⟨hwalk.1, ?_⟩, h.directory l hdir⟩
  rw [h.start_eq]
  exact h.walkFrom hwalk.2

/-- A write puts the file where the path leads, which is not the place of a directory. -/
theorem write_eq_ok_iff :
    t.write p content = .ok t' ↔
      t.walkToParent p = .ok () ∧ namesDirectory p = false ∧ endsInSlash p = false ∧
        ∃ l, t.walk p = .ok l ∧ t.entry? l ≠ some .directory ∧ t.set l (.file content) = t' := by
  rw [write]
  cases t.walkToParent p with
  | error fault => simp [bind, Except.bind]
  | ok _ =>
      by_cases hform : (namesDirectory p || endsInSlash p) = true
      · rw [if_pos hform]
        rw [Bool.or_eq_true] at hform
        constructor
        · intro h
          cases h
        · rintro ⟨_, hnames, hslash, _⟩
          simp [hnames, hslash] at hform
      · rw [if_neg hform]
        rw [Bool.not_eq_true, Bool.or_eq_false_iff] at hform
        change (t.walk p >>= _) = _ ↔ _
        rw [bind_eq_ok_iff]
        simp only [hform.1, hform.2, true_and]
        refine exists_congr fun l => and_congr_right fun _ => ?_
        cases t.entry? l with
        | none => simp [pure_eq_ok_iff]
        | some entry =>
            cases entry with
            | directory => simp [throw, throwThe, MonadExceptOf.throw]
            | file old => simp [pure_eq_ok_iff]

theorem ne_nil_of_ne_directory (h : t.entry? l ≠ some .directory) : l ≠ [] := by
  rintro rfl
  exact h rfl

/-- What is left of a tree after a write. -/
theorem keepsDirectories_set (h : t.entry? l ≠ some .directory) :
    KeepsDirectories t (t.set l (.file content)) := by
  refine ⟨rfl, fun k hk => ?_⟩
  rw [entry?_set (ne_nil_of_ne_directory h), if_neg ?_]
  · exact hk
  · rintro rfl
    exact h hk

/-! ## Making directories -/

theorem grows_set (h : t.entry? l = none) : Grows t (t.set l .directory) := by
  have hl : l ≠ [] := by
    rintro rfl
    cases h
  refine ⟨rfl, fun k e hk => ?_, fun k content hk => ?_⟩
  · rw [entry?_set hl, if_neg ?_]
    · exact hk
    · rintro rfl
      simp [h] at hk
  · rw [entry?_set hl] at hk
    split at hk
    · cases hk
    · exact hk

theorem grows_of_makeDir (h : t.makeDir p = .ok t') : Grows t t' := by
  rw [makeDir, bind_eq_ok_iff] at h
  obtain ⟨l, _, h⟩ := h
  by_cases hform : namesDirectory p = true
  · rw [if_pos hform] at h
    cases h
  · rw [if_neg hform] at h
    cases hentry : t.entry? l with
    | some entry => simp [hentry, throw, throwThe, MonadExceptOf.throw] at h
    | none =>
        simp only [hentry, pure_eq_ok_iff] at h
        subst h
        exact grows_set hentry

theorem grows_ensureDir (t : FileTree) (p : Path) : Grows t (t.ensureDir p).2 := by
  rw [ensureDir]
  cases h : t.makeDir p with
  | ok t' => exact grows_of_makeDir h
  | error fault => exact .refl t

theorem grows_makeDirsWithin (t : FileTree) (n : Nat) (p : Path) :
    Grows t (t.makeDirsWithin n p).2 := by
  induction n generalizing p with
  | zero => exact .refl t
  | succ n ih =>
      rw [makeDirsWithin]
      split
      · exact .refl t
      · split
        · split
          · rename_i t' hparents
            have hgrows := ih (p.parent?.getD ⟨""⟩)
            rw [hparents] at hgrows
            exact hgrows.trans (grows_ensureDir t' p)
          · exact ih _
        · exact grows_ensureDir t p

/-- Making directories adds directories, whether or not it succeeds. -/
theorem grows_makeDirs (t : FileTree) (p : Path) : Grows t (t.makeDirs p).2 :=
  grows_makeDirsWithin t _ p

theorem isDirectory_iff :
    t.isDirectory p = true ↔ ∃ l, t.walk p = .ok l ∧ t.entry? l = some .directory := by
  rw [isDirectory]
  cases t.walk p with
  | error fault => simp
  | ok l =>
      cases hentry : t.entry? l with
      | none => simp [hentry]
      | some entry => cases entry <;> simp [hentry]

/-- A directory that is there is not made again. -/
theorem makeDirs_of_isDirectory (h : t.isDirectory p = true) : t.makeDirs p = (.ok (), t) := by
  obtain ⟨l, hwalk, hentry⟩ := isDirectory_iff.mp h
  have hmake : t.makeDir p = .error .alreadyExists := by
    rw [makeDir, hwalk]
    change (if _ then _ else _) = _
    split
    · rfl
    · simp only [hentry]
      rfl
  have hensure : t.ensureDir p = (.ok (), t) := by
    simp [ensureDir, hmake, h]
  rw [makeDirs, makeDirsWithin, hensure]
  split <;> rfl

/-! ## Files in one directory -/

theorem pathFault?_eq_none_iff :
    pathFault? p = none ↔
      '\x00' ∉ p.text.toList ∧ p.text ≠ "" ∧ p.text.utf8ByteSize ≤ maxPathSize := by
  rw [pathFault?]
  by_cases hnul : p.text.toList.contains '\x00' = true
  · simp_all
  · rw [if_neg hnul]
    by_cases hempty : p.text = ""
    · simp [hempty]
    · have hmem : '\x00' ∉ p.text.toList := by simpa using hnul
      simp [hempty, hmem]

/-- A directory is there if its steps lead to one from where a longer path starts. -/
theorem isDirectory_of_walkFrom {rest : String} (hq : q.text ≠ "") (htext : p.text = q.text ++ rest)
    (hroot : q.anchor = .root ↔ p.anchor = .root) (hfault : pathFault? p = none)
    (hwalk : t.walkFrom (t.start p) (steps q) = .ok l) (hdir : t.entry? l = some .directory) :
    t.isDirectory q = true := by
  rw [pathFault?_eq_none_iff, htext, String.toList_append, String.utf8ByteSize_append,
    List.mem_append] at hfault
  obtain ⟨hnul, _, hsize⟩ := hfault
  have hstart : t.start p = t.start q := by simp [start, hroot]
  rw [hstart] at hwalk
  refine isDirectory_iff.mpr ⟨l, walkSteps_eq_ok_iff.mpr ⟨?_, hwalk⟩, hdir⟩
  refine pathFault?_eq_none_iff.mpr ⟨fun h => hnul (.inl h), hq, ?_⟩
  omega

theorem eq_dot_of_isBlankPiece {ps : List String}
    (h : ∀ piece ∈ ps, Path.isBlankPiece piece = true) :
    ∀ name ∈ ps.filter fun piece => piece != "", name = "." := by
  intro name hname
  obtain ⟨hmem, hne⟩ := List.mem_filter.mp hname
  have hblank := h name hmem
  simp_all [Path.isBlankPiece]

/-- Steps to the same directory can be left out. -/
theorem walkFrom_of_append_dots {names dots : List String} (hdots : ∀ name ∈ dots, name = ".")
    (h : t.walkFrom l (names ++ dots) = .ok k) : t.walkFrom l names = .ok k := by
  induction dots using List.reverseRecOn with
  | nil => simpa using h
  | append_singleton dots dot ih =>
      obtain rfl := hdots dot (by simp)
      rw [← List.append_assoc, walkFrom_concat_eq_ok_iff] at h
      obtain ⟨j, hj, _, _, hstep⟩ := h
      rw [step, if_pos rfl] at hstep
      subst hstep
      exact ih (fun name hname => hdots name (List.mem_append_left _ hname)) hj

/-- The last piece of a path is its last step, if that does not name a directory by its form. -/
theorem steps_of_body {init : List String} {x : String} (hform : namesDirectory p = false)
    (h : p.body = init ++ [x]) :
    steps p = ((Path.lead p.anchor ++ init).filter fun piece => piece != "") ++ [x] := by
  obtain ⟨blanks, hpieces, hblanks⟩ := Path.exists_pieces_body p
  have hx : (x != "") = true := by
    have hmove := Path.isBlankPiece_of_body h
    simp_all [Path.isBlankPiece]
  have hsteps : steps p = ((Path.lead p.anchor ++ init).filter fun piece => piece != "") ++ [x] ++
      blanks.filter fun piece => piece != "" := by
    rw [steps, hpieces, h]
    simp [hx]
  -- A piece after it would be a step to the same directory.
  rcases List.eq_nil_or_concat (blanks.filter fun piece => piece != "") with hnil | ⟨ds, d, hds⟩
  · rw [hsteps, hnil, List.append_nil]
  · rw [List.concat_eq_append] at hds
    obtain rfl := eq_dot_of_isBlankPiece hblanks d (by simp [hds])
    rw [hds, ← List.append_assoc] at hsteps
    have hlast : (steps p).getLast? = some "." := by rw [hsteps, List.getLast?_concat]
    simp [namesDirectory, hlast] at hform

/-- **Where a file can be made, its parent is a directory**, though the path may be spelled with
more steps than the parent has. -/
theorem isDirectory_of_parent? (hform : namesDirectory p = false) (hparent : p.parent? = some q)
    (hq : q.text ≠ "") (h : t.walkToParent p = .ok ()) : t.isDirectory q = true := by
  obtain ⟨l, hwalk, hdir⟩ := walkToParent_eq_ok_iff.mp h
  rw [walkSteps_eq_ok_iff] at hwalk
  obtain ⟨hfault, hwalk⟩ := hwalk
  rcases List.eq_nil_or_concat p.body with hbody | ⟨init, x, hbody⟩
  · -- Without a body a path has no parent but the empty one.
    have hempty := Path.getD_parent?_of_body hbody
    rw [hparent, Option.getD_some] at hempty
    rw [hempty] at hq
    exact absurd rfl hq
  · rw [List.concat_eq_append] at hbody
    obtain rfl : Path.ofBody p.anchor (Path.dropBlankEnd init) = q :=
      Option.some.inj ((Path.parent?_of_body hbody).symm.trans hparent)
    obtain ⟨rest, hrest⟩ := Path.exists_text_parent hbody
    have hsteps : steps (Path.ofBody p.anchor (Path.dropBlankEnd init)) =
        (Path.lead p.anchor ++ Path.dropBlankEnd init).filter fun piece => piece != "" :=
      Path.filter_pieces_ofBody rfl _ fun piece hpiece => Path.notMem_of_mem_init hbody hpiece
    obtain ⟨blanks, hinit, hblanks⟩ := Path.exists_dropBlankEnd init
    rw [steps_of_body hform hbody, List.dropLast_concat, hinit, ← List.append_assoc,
      List.filter_append, ← hsteps] at hwalk
    exact isDirectory_of_walkFrom hq hrest (Path.anchor_parent hbody) hfault
      (walkFrom_of_append_dots (eq_dot_of_isBlankPiece hblanks) hwalk) hdir

theorem step_of_isFileName {name : String} (h : Path.IsFileName name) :
    step l name = l ++ [name] := by
  rw [step, if_neg h.ne_dot, if_neg h.ne_up]

/-- **Files in one directory are at one location only if their paths say the same.** -/
theorem saysSame_of_target_eq {name : String} (hname : Path.IsFileName name)
    (h : t.target p = t.target (p.sibling name)) :
    (p.sibling name).SaysSame p := by
  rw [target, target] at h
  rcases @Path.moves_sibling p name hname with
    ⟨hmoves, hsibling, hroot⟩ | ⟨init, x, hx, hmoves, hsibling, hroot⟩
  · -- A walk of no moves is shorter than a move down from the working directory.
    have hlength := congrArg List.length h
    have hle : (t.start p).length ≤ t.home.length := by
      rw [start]
      split <;> simp
    simp only [hmoves, hsibling, List.foldl_nil, List.foldl_cons, step_of_isFileName hname,
      start, if_neg hroot, List.length_append, List.length_singleton] at hlength
    rw [start] at hle
    omega
  · have hstart : t.start (p.sibling name) = t.start p := by
      simp [start, hroot]
    rw [hmoves, hsibling, hstart, List.foldl_append, List.foldl_append] at h
    simp only [List.foldl_cons, List.foldl_nil, step_of_isFileName hname] at h
    obtain rfl : x = name := by
      by_cases hup : x = ".."
      · have hlength := congrArg List.length h
        simp only [step, hup, reduceIte, String.reduceEq, List.length_dropLast, List.length_append,
          List.length_singleton] at hlength
        omega
      · have hdot : x ≠ "." := by
          rintro rfl
          cases hx
        rw [step, if_neg hdot, if_neg hup] at h
        exact (List.append_singleton_inj.mp h).2
    exact ⟨hroot, hsibling.trans hmoves.symm⟩

end IdlBindings.FileTree
