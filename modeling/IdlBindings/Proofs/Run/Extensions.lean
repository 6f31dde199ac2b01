import IdlBindings.Proofs.Run.Trees

/-!
# Files that differ in their extension

A path that ends in a name is written as the text before the name, and the name. Cutting off an
extension shortens the name and touches nothing before it, so a path with another extension goes
through the same directories to another name. The one exception is a name like `..idl`: without its
extension it is the step to the parent, and no extension takes its place.

## Main definitions

* `Path.EndsIn`: the last piece of a path, behind some text
* `Path.Beside`: paths of files in one directory
-/
namespace IdlBindings

namespace Path

variable {p q : Path} {x y name stem extension : String} {before : List Char}
  {front init : List String}

/-! ## The last piece -/

/-- Behind some text that ends in a slash, or none, whatever has no slash is the last piece. -/
theorem exists_last_split (cs : List Char) :
    ∃ before last front, cs = before ++ last ∧ '/' ∉ last ∧ (∀ c ∈ before.getLast?, c = '/') ∧
      ∀ ys, '/' ∉ ys → split (before ++ ys) = front ++ [ys] := by
  by_cases hslash : '/' ∈ cs
  · obtain ⟨last, before, hcs, hlast⟩ :=
      List.eq_append_cons_of_mem (List.mem_reverse.mpr hslash)
    refine ⟨before.reverse ++ ['/'], last.reverse, split before.reverse, ?_, by simpa using hlast,
      by simp, ?_⟩
    · rw [← List.reverse_reverse cs, hcs]
      simp
    · intro ys hys
      rw [List.append_assoc, List.singleton_append, split_append_slash, split_of_notMem hys]
  · exact ⟨[], cs, [], rfl, hslash, by simp, fun ys hys => split_of_notMem hys⟩

/-- The path ends in the piece `x`, which stands behind `before`. Another piece in its place stands
behind the same pieces. -/
structure EndsIn (p : Path) (before : List Char) (front : List String) (x : String) : Prop where
  text_eq : p.text.toList = before ++ x.toList
  no_slash : '/' ∉ x.toList
  after_slash : ∀ c ∈ before.getLast?, c = '/'
  pieces_of : ∀ y : String, '/' ∉ y.toList →
    pieces ⟨String.ofList (before ++ y.toList)⟩ = front ++ [y]

theorem exists_endsIn (p : Path) : ∃ before front x, p.EndsIn before front x := by
  obtain ⟨before, last, front, htext, hlast, hslash, hfront⟩ := exists_last_split p.text.toList
  refine ⟨before, front.map String.ofList, String.ofList last, ?_, ?_, hslash, ?_⟩
  · rw [htext, String.toList_ofList]
  · rwa [String.toList_ofList]
  · intro y hy
    rw [pieces_eq, String.toList_ofList, hfront _ hy]
    simp

namespace EndsIn

theorem pieces_eq (h : p.EndsIn before front x) : p.pieces = front ++ [x] := by
  rw [← h.pieces_of x h.no_slash, ← h.text_eq, String.ofList_toList]

theorem of_text (h : p.EndsIn before front x) (hq : q.text.toList = before ++ y.toList)
    (hy : '/' ∉ y.toList) : q.EndsIn before front y := ⟨hq, hy, h.after_slash, h.pieces_of⟩

/-- A path that ends in a piece that leads somewhere has it as its last move. -/
theorem moves_eq (h : p.EndsIn before front x) (hx : isBlankPiece x = false) :
    p.moves = (front.filter fun piece => !isBlankPiece piece) ++ [x] := by
  simp [moves, h.pieces_eq, hx]

theorem anchor_iff (hp : p.EndsIn before front x) (hq : q.EndsIn before front y) :
    q.anchor = .root ↔ p.anchor = .root := by
  rw [anchor_eq_root_iff_head?, anchor_eq_root_iff_head?, hp.text_eq, hq.text_eq]
  cases before with
  | cons c before => simp
  | nil =>
      have hx : x.toList.head? ≠ some '/' := fun h => hp.no_slash (List.mem_of_head? h)
      have hy : y.toList.head? ≠ some '/' := fun h => hq.no_slash (List.mem_of_head? h)
      simp [hx, hy]

theorem exists_body (h : p.EndsIn before front x) (hx : isBlankPiece x = false) :
    ∃ init, p.body = init ++ [x] := by
  obtain ⟨blanks, hpieces, hblanks⟩ := exists_pieces_body p
  rw [h.pieces_eq] at hpieces
  have hlast := congrArg List.getLast? hpieces
  rw [List.getLast?_concat] at hlast
  rcases List.eq_nil_or_concat blanks with rfl | ⟨blanks', y, rfl⟩
  · rw [List.append_nil] at hlast
    rcases List.eq_nil_or_concat p.body with hbody | ⟨init, y, hbody⟩
    · rw [hbody, List.append_nil] at hlast
      have hlead := isBlankPiece_of_mem_lead (List.mem_of_getLast? hlast.symm)
      rw [hx] at hlead
      cases hlead
    · rw [List.concat_eq_append] at hbody
      rw [hbody, ← List.append_assoc, List.getLast?_concat, Option.some.injEq] at hlast
      exact ⟨init, by rw [hbody, hlast]⟩
  · rw [List.concat_eq_append, ← List.append_assoc, List.getLast?_concat,
      Option.some.injEq] at hlast
    have hblank := hblanks y (by simp)
    rw [← hlast, hx] at hblank
    cases hblank

theorem fileName?_eq (h : p.EndsIn before front x) (hx : isBlankPiece x = false) :
    p.fileName? = if x = ".." then none else some x := by
  obtain ⟨init, hbody⟩ := h.exists_body hx
  by_cases hup : x = ".." <;> simp [fileName?, hbody, hup, Option.filter]

theorem stem?_eq (h : p.EndsIn before front x) (hx : IsFileName x) :
    p.stem? = some (splitName x).1 := by
  rw [stem?, h.fileName?_eq hx.isBlankPiece_eq, if_neg hx.ne_up, Option.map_some]

theorem extension?_eq (h : p.EndsIn before front x) (hx : IsFileName x) :
    p.extension? = (splitName x).2 := by
  rw [extension?, h.fileName?_eq hx.isBlankPiece_eq, if_neg hx.ne_up, Option.bind_some]

end EndsIn

/-! ## Other names -/

/-- The paths go through the same directories, to these names. -/
structure Beside (p q : Path) (x y : String) : Prop where
  anchor_iff : q.anchor = .root ↔ p.anchor = .root
  moves_eq : ∃ init, p.moves = init ++ [x] ∧ q.moves = init ++ [y]

theorem Beside.trans {r : Path} {z : String} (h : p.Beside q x y) (h' : q.Beside r y z) :
    p.Beside r x z := by
  obtain ⟨init, hp, hq⟩ := h.moves_eq
  obtain ⟨init', hq', hr⟩ := h'.moves_eq
  rw [hq] at hq'
  obtain rfl := (List.append_singleton_inj.mp hq').1
  exact ⟨h'.anchor_iff.trans h.anchor_iff, init, hp, hr⟩

theorem Beside.sibling (h : p.Beside q x y) (hname : IsFileName name) :
    p.Beside (q.sibling name) x name := by
  obtain ⟨init, _, hq⟩ := h.moves_eq
  rcases @moves_sibling q name hname with ⟨hnil, _⟩ | ⟨init', z, _, hmoves, hsibling, hroot⟩
  · simp [hnil] at hq
  · rw [hq] at hmoves
    obtain ⟨rfl, rfl⟩ := List.append_singleton_inj.mp hmoves
    exact h.trans ⟨hroot, init, hq, hsibling⟩

/-- The pieces of a path with another file name hold no slash. -/
theorem notMem_of_mem_renamed (h : p.body = init ++ [x]) (hname : '/' ∉ name.toList) :
    ∀ piece ∈ init ++ [name], '/' ∉ piece.toList := by
  intro piece hpiece
  rcases List.mem_append.mp hpiece with hinit | hlast
  · obtain ⟨blanks, hpieces, _⟩ := exists_pieces_body p
    apply @notMem_of_mem_pieces p
    rw [hpieces, h]
    simp [hinit]
  · rwa [List.mem_singleton.mp hlast]

/-- A path with another file name makes the same moves up to the last. -/
theorem EndsIn.moves_withFileName (h : p.EndsIn before front x) (hx : isBlankPiece x = false)
    (hname : IsFileName name) :
    (p.withFileName name).moves = (front.filter fun piece => !isBlankPiece piece) ++ [name] := by
  obtain ⟨init, hbody⟩ := h.exists_body hx
  have hlead := filter_move_of_isBlankPiece fun _ => @isBlankPiece_of_mem_lead _ p.anchor
  have hmoves := moves_eq_filter_body p
  rw [h.moves_eq hx, hbody] at hmoves
  rw [withFileName, hbody, List.dropLast_concat, moves,
    filter_pieces_ofBody rfl _ (notMem_of_mem_renamed hbody hname.no_slash),
    List.filter_append, hlead]
  simpa [hx, hname.isBlankPiece_eq] using hmoves.symm

theorem EndsIn.anchor_withFileName (h : p.EndsIn before front x) (hx : isBlankPiece x = false)
    (hname : IsFileName name) : (p.withFileName name).anchor = .root ↔ p.anchor = .root := by
  obtain ⟨init, hbody⟩ := h.exists_body hx
  rw [withFileName, hbody, List.dropLast_concat]
  refine anchor_ofBody _ (notMem_of_mem_renamed hbody hname.no_slash) ?_
  intro hfree y ys hinit
  -- The body would start with an empty piece, as only the pieces of a path from the root do.
  obtain ⟨blanks, hpieces, _⟩ := exists_pieces_body p
  cases init with
  | nil => simp at hinit
  | cons z init =>
      obtain rfl : z = "" := (List.cons.inj hinit).1
      have hroot : p.anchor = .root := by
        rw [anchor_eq_root_iff, hpieces, hfree, hbody]
        cases init <;> simp [lead]
      rw [hfree] at hroot
      cases hroot

/-! ## Extensions -/

/-- A name either has no extension or is its stem, a dot and its extension. -/
theorem splitName_cases (name : String) :
    splitName name = (name, none) ∨
      ∃ stem extension, splitName name = (stem, some extension) ∧
        name = stem ++ "." ++ extension ∧ stem ≠ "" := by
  have hname := @List.takeWhile_append_dropWhile _ (fun c => c != '.') name.toList.reverse
  rw [splitName]
  generalize name.toList.reverse.takeWhile (fun c => c != '.') = after at hname ⊢
  cases hrest : name.toList.reverse.dropWhile fun c => c != '.' with
  | nil =>
      rw [hrest, List.append_nil] at hname
      simp [hname]
  | cons c rest =>
      have hc : c = '.' := by
        simpa [hrest] using List.head?_dropWhile_not (fun c => c != '.') name.toList.reverse
      subst hc
      rw [hrest] at hname
      rw [← hname, List.drop_left, List.drop_one, List.tail_cons]
      cases rest with
      | nil => simp
      | cons d rest =>
          right
          refine ⟨String.ofList (d :: rest).reverse, String.ofList after.reverse, by simp, ?_,
            by simp⟩
          rw [← String.toList_inj, ← List.reverse_reverse name.toList, ← hname]
          simp

/-- A dot at the end is an extension without letters. -/
theorem splitName_concat_dot (h : stem ≠ "") : splitName (stem ++ ".") = (stem, some "") := by
  have hrev : (stem ++ ".").toList.reverse = '.' :: stem.toList.reverse := by simp
  rw [splitName, hrev]
  simp [h]

/-- Another extension leaves a name as it is just if it is the one that the name has. -/
theorem renamed_eq_iff :
    (splitName x).1 ++ "." ++ extension = x ↔ (splitName x).2 = some extension := by
  rcases splitName_cases x with hnone | ⟨stem, old, hsplit, hx, _⟩
  · have hne : x ++ "." ++ extension ≠ x := by
      intro h
      have hlength := congrArg (fun s => s.toList.length) h
      simp only [String.toList_append, List.length_append] at hlength
      have hdot : ".".toList.length = 1 := rfl
      omega
    simp [hnone, hne]
  · rw [hsplit]
    conv_lhs => rw [hx]
    simp [eq_comm]

theorem cutExtension_of_some (h : p.extension? = some extension) :
    p.cutExtension =
      ⟨String.ofList (p.text.toList.take (p.text.toList.length - extension.length))⟩ := by
  unfold cutExtension
  split <;> simp_all

theorem cutExtension_of_none (h : p.extension? = none) : p.cutExtension = p := by
  unfold cutExtension
  split <;> simp_all

theorem EndsIn.cutExtension (h : p.EndsIn before front x) (hx : IsFileName x)
    (hsplit : splitName x = (stem, some extension)) (heq : x = stem ++ "." ++ extension) :
    p.cutExtension.EndsIn before front (stem ++ ".") := by
  have hext : p.extension? = some extension := by rw [h.extension?_eq hx, hsplit]
  have hno : '/' ∉ (stem ++ ".").toList := by
    have hslash := h.no_slash
    rw [heq, String.toList_append, List.mem_append, not_or] at hslash
    exact hslash.1
  refine h.of_text ?_ hno
  have htext : p.text.toList = (before ++ (stem ++ ".").toList) ++ extension.toList := by
    rw [h.text_eq, heq, String.toList_append, List.append_assoc]
  have hlength : p.text.toList.length - extension.length =
      (before ++ (stem ++ ".").toList).length := by
    rw [htext, List.length_append, ← String.length_toList, Nat.add_sub_cancel]
  rw [cutExtension_of_some hext, String.toList_ofList, hlength, htext, List.take_left]

theorem withExtension_of_stem? (h : p.cutExtension.stem? = some stem) :
    p.withExtension extension = p.cutExtension.withFileName (stem ++ "." ++ extension) := by
  unfold withExtension
  split <;> simp_all

theorem withExtension_of_none (h : p.cutExtension.stem? = none) :
    p.withExtension extension = p.cutExtension := by
  unfold withExtension
  split <;> simp_all

/-- The stem is how a name starts. -/
theorem exists_stem_append (hx : x ≠ "") :
    (splitName x).1 ≠ "" ∧ ∃ rest, x = (splitName x).1 ++ rest := by
  rcases splitName_cases x with hnone | ⟨stem, old, hsplit, heq, hstem⟩
  · rw [hnone]
    exact ⟨hx, "", by simp⟩
  · rw [hsplit]
    exact ⟨hstem, "." ++ old, by rw [heq, String.append_assoc]⟩

/-- A name with another extension is a name again. -/
theorem IsFileName.renamed (hx : IsFileName x) (hslash : '/' ∉ extension.toList)
    (hextension : extension ≠ "") : IsFileName ((splitName x).1 ++ "." ++ extension) := by
  obtain ⟨hstem, rest, hrest⟩ := exists_stem_append hx.ne_empty
  have hno : '/' ∉ (splitName x).1.toList := by
    have hall := hx.no_slash
    rw [hrest, String.toList_append, List.mem_append, not_or] at hall
    exact hall.1
  have hlong : 3 ≤ ((splitName x).1 ++ "." ++ extension).length := by
    have hpos : 0 < (splitName x).1.length ∧ 0 < extension.length := by
      simp [Nat.pos_iff_ne_zero, hstem, hextension]
    simp only [String.length_append]
    have hdot : ".".length = 1 := rfl
    omega
  refine ⟨by simp [hno, hslash], ?_, ?_, ?_⟩
  all_goals
    intro heq
    rw [heq] at hlong
    revert hlong
    decide

/-- **A path with another extension differs in its last move**, unless nothing is left of its name
but the step to the parent. -/
theorem EndsIn.withExtension_cases (h : p.EndsIn before front x) (hx : IsFileName x)
    (hname : IsFileName ((splitName x).1 ++ "." ++ extension)) :
    (p.withExtension extension).EndsIn before front ".." ∨
      p.Beside (p.withExtension extension) x ((splitName x).1 ++ "." ++ extension) := by
  have hmoves := h.moves_eq hx.isBlankPiece_eq
  rcases splitName_cases x with hnone | ⟨stem, old, hsplit, heq, hstem⟩
  · right
    have hcut : p.cutExtension = p := cutExtension_of_none (by rw [h.extension?_eq hx, hnone])
    rw [withExtension_of_stem? (hcut ▸ h.stem?_eq hx), hcut]
    exact ⟨h.anchor_withFileName hx.isBlankPiece_eq hname, _, hmoves,
      h.moves_withFileName hx.isBlankPiece_eq hname⟩
  · have hcut := h.cutExtension hx hsplit heq
    have hne : stem ++ "." ≠ "" ∧ stem ++ "." ≠ "." := by
      simp [← String.toList_inj, hstem]
    by_cases hup : stem ++ "." = ".."
    · left
      rw [hup] at hcut
      have hnone : p.cutExtension.stem? = none := by
        rw [stem?, hcut.fileName?_eq rfl]
        rfl
      rwa [withExtension_of_none hnone]
    · right
      have hfile : IsFileName (stem ++ ".") := ⟨hcut.no_slash, hne.1, hne.2, hup⟩
      have hcutstem := hcut.stem?_eq hfile
      rw [splitName_concat_dot hstem] at hcutstem
      rw [hsplit] at hname ⊢
      rw [withExtension_of_stem? hcutstem]
      exact ⟨(hcut.anchor_withFileName hfile.isBlankPiece_eq hname).trans (h.anchor_iff hcut), _,
        hmoves, hcut.moves_withFileName hfile.isBlankPiece_eq hname⟩

/-- A path that ends in the step to the parent keeps its extension, as it has none. -/
theorem EndsIn.withExtension_up (h : p.EndsIn before front "..") :
    p.withExtension extension = p := by
  have hname : p.fileName? = none := by
    rw [h.fileName?_eq rfl]
    rfl
  have hcut : p.cutExtension = p := cutExtension_of_none (by rw [extension?, hname]; rfl)
  rw [withExtension_of_none, hcut]
  rw [hcut, stem?, hname]
  rfl

end Path

namespace FileTree

variable {t : FileTree} {p q : Path} {x y : String} {before : List Char} {front : List String}

/-- **Files in one directory are at one location only if they have one name.** -/
theorem target_eq_iff_of_beside (h : p.Beside q x y) (hx : Path.IsFileName x)
    (hy : Path.IsFileName y) : t.target p = t.target q ↔ x = y := by
  obtain ⟨init, hp, hq⟩ := h.moves_eq
  have hstart : t.start q = t.start p := by simp [start, h.anchor_iff]
  rw [target, target, hp, hq, hstart, List.foldl_append, List.foldl_append]
  simp [step_of_isFileName hx, step_of_isFileName hy]

theorem namesDirectory_of_endsIn (h : p.EndsIn before front "..") : namesDirectory p = true := by
  simp [namesDirectory, steps, h.pieces_eq]

/-- A path that leads to a file ends in a piece that leads somewhere. -/
theorem exists_endsIn_of_read {content : ByteArray} (h : t.read p = .ok content) :
    ∃ before front x, p.EndsIn before front x ∧ Path.isBlankPiece x = false := by
  obtain ⟨before, front, x, hends⟩ := p.exists_endsIn
  refine ⟨before, front, x, hends, ?_⟩
  obtain ⟨l, hwalk, hentry, hslash⟩ := read_eq_ok_iff.mp h
  rw [walk, walkSteps_eq_ok_iff] at hwalk
  have hempty : x ≠ "" := by
    rintro rfl
    have htext : p.text.toList = before := by simpa using hends.text_eq
    cases hlast : before.getLast? with
    | none =>
        rw [List.getLast?_eq_none_iff] at hlast
        rw [hlast] at htext
        exact (pathFault?_eq_none_iff.mp hwalk.1).2.1 (String.toList_eq_nil_iff.mp htext)
    | some c =>
        obtain rfl := hends.after_slash c hlast
        simp [endsInSlash, htext, hlast] at hslash
  have hdot : x ≠ "." := by
    rintro rfl
    have hsteps : steps p = front.filter (fun piece => piece != "") ++ ["."] := by
      simp [steps, hends.pieces_eq]
    rw [hsteps, walkFrom_concat_eq_ok_iff] at hwalk
    obtain ⟨_, j, _, hdir, _, rfl⟩ := hwalk
    rw [step, if_pos rfl, hdir] at hentry
    cases hentry
  simp [Path.isBlankPiece, hempty, hdot]

end FileTree
end IdlBindings
