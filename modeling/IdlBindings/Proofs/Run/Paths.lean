import IdlBindings.FileTree
import Mathlib.Data.List.DropRight

/-!
# What a path says

Two paths that are spelled differently may say the same: `a//b`, `a/./b` and `a/b/` all go to `a`
and then to `b`. What a path says is where it starts and which moves it makes. The parts of a path
are related by their moves: the parent makes all moves but the last, and a file in a directory is
one move away from it.

## Main definitions

* `Path.lead`: the pieces that an anchor stands for
* `Path.moves`: the pieces that lead somewhere
* `Path.SaysSame`: paths that say the same
* `Path.IsFileName`, `Path.sibling`: names of files in a directory, and files in the same directory
-/
namespace IdlBindings.Path

variable {p q : Path} {name piece : String}

/-! ## Pieces -/

/-- The pieces of a text, as `pieces` finds them. -/
def split (cs : List Char) : List (List Char) := (splitSlash cs).1 :: (splitSlash cs).2

theorem pieces_eq (p : Path) : p.pieces = (split p.text.toList).map String.ofList := rfl

@[simp] theorem split_nil : split [] = [[]] := rfl

@[simp] theorem split_slash (cs : List Char) : split ('/' :: cs) = [] :: split cs := by
  simp [split, splitSlash]

theorem split_cons {c : Char} (hc : c ≠ '/') (cs : List Char) :
    split (c :: cs) = (c :: (splitSlash cs).1) :: (splitSlash cs).2 := by
  simp [split, splitSlash, hc]

theorem split_append_slash (xs ys : List Char) :
    split (xs ++ '/' :: ys) = split xs ++ split ys := by
  induction xs with
  | nil => simp
  | cons c xs ih =>
      by_cases hc : c = '/'
      · subst hc
        simp [ih]
      · simp only [split, List.cons_append, List.cons.injEq] at ih
        rw [List.cons_append, split_cons hc, split_cons hc, ih.1, ih.2]
        simp [split]

theorem split_of_notMem {xs : List Char} (h : '/' ∉ xs) : split xs = [xs] := by
  induction xs with
  | nil => rfl
  | cons c xs ih =>
      rw [List.mem_cons, not_or] at h
      have hxs := ih h.2
      simp only [split, List.cons.injEq] at hxs
      rw [split_cons (Ne.symm h.1), hxs.1, hxs.2]

theorem notMem_of_mem_split {xs cs : List Char} (h : xs ∈ split cs) : '/' ∉ xs := by
  induction cs generalizing xs with
  | nil =>
      rw [split_nil, List.mem_singleton] at h
      simp [h]
  | cons c cs ih =>
      by_cases hc : c = '/'
      · subst hc
        rw [split_slash, List.mem_cons] at h
        rcases h with rfl | h
        · simp
        · exact ih h
      · rw [split_cons hc, List.mem_cons] at h
        rcases h with rfl | h
        · rw [List.mem_cons, not_or]
          exact ⟨Ne.symm hc, ih (List.mem_cons_self ..)⟩
        · exact ih (List.mem_cons_of_mem _ h)

theorem notMem_of_mem_pieces (h : piece ∈ p.pieces) : '/' ∉ piece.toList := by
  rw [pieces_eq, List.mem_map] at h
  obtain ⟨cs, hcs, rfl⟩ := h
  rw [String.toList_ofList]
  exact notMem_of_mem_split hcs

theorem pieces_append_slash (a b : String) :
    pieces ⟨a ++ "/" ++ b⟩ = pieces ⟨a⟩ ++ pieces ⟨b⟩ := by
  have htext : (a ++ "/" ++ b).toList = a.toList ++ '/' :: b.toList := by
    simp [String.toList_append]
  simp only [pieces_eq, htext, split_append_slash, List.map_append]

theorem pieces_of_notMem (h : '/' ∉ name.toList) : pieces ⟨name⟩ = [name] := by
  simp [pieces_eq, split_of_notMem h]

/-- Pieces that are put together with slashes come apart again. -/
theorem pieces_intercalate {ps : List String} (hps : ps ≠ [])
    (h : ∀ piece ∈ ps, '/' ∉ piece.toList) : pieces ⟨String.intercalate "/" ps⟩ = ps := by
  induction ps with
  | nil => exact absurd rfl hps
  | cons x ps ih =>
      have hx := h x List.mem_cons_self
      cases ps with
      | nil => simpa using pieces_of_notMem hx
      | cons y ps =>
          rw [String.intercalate_cons_cons, pieces_append_slash, pieces_of_notMem hx,
            ih (by simp) fun piece hpiece => h piece (List.mem_cons_of_mem x hpiece)]
          rfl

theorem intercalate_split (cs : List Char) : ['/'].intercalate (split cs) = cs := by
  induction cs with
  | nil => rfl
  | cons c cs ih =>
      rw [split] at ih
      by_cases hc : c = '/'
      · subst hc
        rw [split_slash, split, List.intercalate_cons_cons, ih]
        rfl
      · rw [split_cons hc]
        conv_rhs => rw [← ih]
        cases (splitSlash cs).2 with
        | nil => simp
        | cons x xs => simp [List.intercalate_cons_cons]

/-- A path is its pieces put together. -/
theorem intercalate_pieces (p : Path) : String.intercalate "/" p.pieces = p.text := by
  rw [← String.toList_inj, String.toList_intercalate, pieces_eq, List.map_map]
  have hmap : String.toList ∘ String.ofList = id := by
    funext cs
    simp
  rw [hmap, List.map_id]
  exact intercalate_split _

theorem exists_intercalate_append (xs ys : List String) :
    ∃ rest, String.intercalate "/" (xs ++ ys) = String.intercalate "/" xs ++ rest := by
  induction xs with
  | nil => exact ⟨String.intercalate "/" ys, by simp⟩
  | cons x xs ih =>
      cases xs with
      | nil =>
          cases ys with
          | nil => exact ⟨"", by simp⟩
          | cons y ys =>
              refine ⟨"/" ++ String.intercalate "/" (y :: ys), ?_⟩
              simp [String.intercalate_cons_cons, String.append_assoc]
      | cons x' xs =>
          obtain ⟨rest, hrest⟩ := ih
          refine ⟨rest, ?_⟩
          rw [List.cons_append, List.cons_append, String.intercalate_cons_cons,
            ← List.cons_append, hrest, String.intercalate_cons_cons]
          simp only [String.append_assoc]

theorem pieces_ne_nil (p : Path) : p.pieces ≠ [] := by simp [pieces_eq, split]

/-! ## Anchor and body -/

/-- The pieces that an anchor stands for. -/
def lead : Anchor → List String
  | .free => []
  | .root => [""]
  | .here => ["."]

theorem isBlankPiece_of_mem_lead {a : Anchor} (h : piece ∈ lead a) : isBlankPiece piece = true := by
  cases a <;> simp_all [lead, isBlankPiece]

theorem anchor_eq_root_iff : p.anchor = .root ↔ ∃ x xs, p.pieces = "" :: x :: xs := by
  rw [anchor]
  split
  · rename_i x xs hp
    simp [hp]
  · rename_i xs hp
    simp [hp]
  · rename_i hroot _
    simp only [reduceCtorEq, false_iff]
    rintro ⟨x, xs, hp⟩
    exact hroot x xs hp

theorem pieces_of_anchor_here (h : p.anchor = .here) : ∃ xs, p.pieces = "." :: xs := by
  rw [anchor] at h
  split at h
  · cases h
  · rename_i xs hp
    exact ⟨xs, hp⟩
  · cases h

theorem exists_pieces_lead (p : Path) :
    ∃ rest, p.pieces = lead p.anchor ++ rest ∧ p.body = dropBlankEnd rest := by
  rw [body]
  cases h : p.anchor with
  | free => exact ⟨p.pieces, rfl, rfl⟩
  | root =>
      obtain ⟨x, xs, hp⟩ := anchor_eq_root_iff.mp h
      exact ⟨x :: xs, hp, by rw [hp]; rfl⟩
  | here =>
      obtain ⟨xs, hp⟩ := pieces_of_anchor_here h
      exact ⟨xs, hp, by rw [hp]; rfl⟩

/-- What is dropped at the end names nothing. -/
theorem exists_dropBlankEnd (ps : List String) :
    ∃ blanks, ps = dropBlankEnd ps ++ blanks ∧ ∀ piece ∈ blanks, isBlankPiece piece = true :=
  ⟨ps.rtakeWhile isBlankPiece, (@List.rdropWhile_append_rtakeWhile _ isBlankPiece ps).symm,
    fun _ => List.mem_rtakeWhile_imp⟩

/-- A path has its anchor, its body, and then pieces that name nothing. -/
theorem exists_pieces_body (p : Path) :
    ∃ blanks, p.pieces = lead p.anchor ++ p.body ++ blanks ∧
      ∀ piece ∈ blanks, isBlankPiece piece = true := by
  obtain ⟨rest, hpieces, hbody⟩ := exists_pieces_lead p
  obtain ⟨blanks, hrest, hblanks⟩ := exists_dropBlankEnd rest
  refine ⟨blanks, ?_, hblanks⟩
  rw [hpieces, hbody, List.append_assoc, ← hrest]

/-- The last piece of a body leads somewhere. -/
theorem isBlankPiece_of_body {init : List String} {x : String} (h : p.body = init ++ [x]) :
    isBlankPiece x = false := by
  obtain ⟨rest, _, hbody⟩ := exists_pieces_lead p
  have hdrop : rest.rdropWhile isBlankPiece = init ++ [x] := hbody.symm.trans h
  have hne : rest.rdropWhile isBlankPiece ≠ [] := by simp [hdrop]
  have hlast := List.rdropWhile_last_not isBlankPiece rest hne
  simpa [hdrop] using hlast

/-- Where empty pieces do not count, a path has the pieces that it is made of. -/
theorem filter_pieces_ofBody {f : String → Bool} (hf : f "" = false) (a : Anchor)
    {ps : List String} (h : ∀ piece ∈ ps, '/' ∉ piece.toList) :
    (ofBody a ps).pieces.filter f = (lead a ++ ps).filter f := by
  have hfree : (pieces ⟨String.intercalate "/" ps⟩).filter f = ps.filter f := by
    cases ps with
    | nil =>
        have hnil : pieces ⟨String.intercalate "/" []⟩ = [""] := rfl
        rw [hnil]
        simp [hf]
    | cons x ps => rw [pieces_intercalate (by simp) h]
  cases a with
  | free => exact hfree
  | root =>
      have htext : ofBody .root ps = ⟨"" ++ "/" ++ String.intercalate "/" ps⟩ := rfl
      rw [htext, pieces_append_slash, List.filter_append, hfree, ← List.filter_append]
      rfl
  | here =>
      have hall : ∀ piece ∈ "." :: ps, '/' ∉ piece.toList := by
        simpa using h
      rw [ofBody, pieces_intercalate (by simp) hall]
      rfl

theorem anchor_ofBody (a : Anchor) {ps : List String} (h : ∀ piece ∈ ps, '/' ∉ piece.toList)
    (hfree : a = .free → ∀ x xs, ps ≠ "" :: x :: xs) :
    (ofBody a ps).anchor = .root ↔ a = .root := by
  rw [anchor_eq_root_iff]
  cases a with
  | free =>
      have hnot : ¬∃ x xs, pieces ⟨String.intercalate "/" ps⟩ = "" :: x :: xs := by
        rintro ⟨x, xs, hp⟩
        cases ps with
        | nil => cases hp
        | cons y ps =>
            rw [pieces_intercalate (by simp) h] at hp
            exact hfree rfl x xs hp
      simpa [ofBody] using hnot
  | root =>
      have htext : ofBody .root ps = ⟨"" ++ "/" ++ String.intercalate "/" ps⟩ := rfl
      obtain ⟨x, xs, hp⟩ := List.exists_cons_of_ne_nil
        (pieces_ne_nil ⟨String.intercalate "/" ps⟩)
      simp only [iff_true]
      refine ⟨x, xs, ?_⟩
      rw [htext, pieces_append_slash, hp]
      rfl
  | here =>
      have hall : ∀ piece ∈ "." :: ps, '/' ∉ piece.toList := by
        simpa using h
      rw [ofBody, pieces_intercalate (by simp) hall]
      simp

/-! ## Moves -/

/-- The pieces that lead somewhere. -/
def moves (p : Path) : List String := p.pieces.filter fun piece => !isBlankPiece piece

theorem filter_move_of_isBlankPiece {ps : List String}
    (h : ∀ piece ∈ ps, isBlankPiece piece = true) :
    ps.filter (fun piece => !isBlankPiece piece) = [] := by
  rw [List.filter_eq_nil_iff]
  intro piece hpiece
  simp [h piece hpiece]

/-- The anchor leads nowhere, and neither do the pieces after the body. -/
theorem moves_eq_filter_body (p : Path) :
    p.moves = p.body.filter fun piece => !isBlankPiece piece := by
  obtain ⟨blanks, hpieces, hblanks⟩ := exists_pieces_body p
  rw [moves, hpieces, List.filter_append, List.filter_append, filter_move_of_isBlankPiece hblanks,
    filter_move_of_isBlankPiece fun _ => isBlankPiece_of_mem_lead]
  simp

theorem filter_move_dropBlankEnd (ps : List String) :
    (dropBlankEnd ps).filter (fun piece => !isBlankPiece piece) =
      ps.filter fun piece => !isBlankPiece piece := by
  obtain ⟨blanks, hps, hblanks⟩ := exists_dropBlankEnd ps
  conv_rhs => rw [hps]
  rw [List.filter_append, filter_move_of_isBlankPiece hblanks, List.append_nil]

/-! ## Parents and files -/

section Parent

variable {init : List String} {x : String}

theorem parent?_of_body (h : p.body = init ++ [x]) :
    p.parent? = some (ofBody p.anchor (dropBlankEnd init)) := by
  rw [parent?, h]
  cases init with
  | nil => rfl
  | cons y ys =>
      have hdrop : (y :: (ys ++ [x])).dropLast = y :: ys := by
        rw [← List.cons_append, List.dropLast_concat]
      rw [List.cons_append, ← hdrop]

theorem notMem_of_mem_init (h : p.body = init ++ [x]) (hpiece : piece ∈ dropBlankEnd init) :
    '/' ∉ piece.toList := by
  obtain ⟨blanks, hpieces, _⟩ := exists_pieces_body p
  obtain ⟨blanks', hinit, _⟩ := exists_dropBlankEnd init
  apply @notMem_of_mem_pieces p
  rw [hpieces, h, hinit]
  simp [hpiece]

/-- The parent makes all moves but the last. -/
theorem moves_parent (h : p.body = init ++ [x]) :
    p.moves = (ofBody p.anchor (dropBlankEnd init)).moves ++ [x] := by
  have hlead := filter_move_of_isBlankPiece fun _ => @isBlankPiece_of_mem_lead _ p.anchor
  rw [moves_eq_filter_body, h, moves,
    filter_pieces_ofBody rfl _ fun piece hpiece => notMem_of_mem_init h hpiece,
    List.filter_append, List.filter_append, hlead, filter_move_dropBlankEnd]
  simp [isBlankPiece_of_body h]

theorem anchor_parent (h : p.body = init ++ [x]) :
    (ofBody p.anchor (dropBlankEnd init)).anchor = .root ↔ p.anchor = .root := by
  refine anchor_ofBody _ (fun piece hpiece => notMem_of_mem_init h hpiece) ?_
  intro hfree y ys hinit
  -- The pieces of the path would start in the same way, as only those from the root do.
  obtain ⟨blanks, hpieces, _⟩ := exists_pieces_body p
  obtain ⟨blanks', hsplit, _⟩ := exists_dropBlankEnd init
  rw [hfree, h, hsplit, hinit] at hpieces
  have hroot : p.anchor = .root := anchor_eq_root_iff.mpr ⟨y, _, hpieces⟩
  rw [hfree] at hroot
  cases hroot

/-- The parent is how the path starts. -/
theorem exists_text_parent (h : p.body = init ++ [x]) :
    ∃ rest, p.text = (ofBody p.anchor (dropBlankEnd init)).text ++ rest := by
  obtain ⟨blanks, hpieces, _⟩ := exists_pieces_body p
  obtain ⟨blanks', hinit, _⟩ := exists_dropBlankEnd init
  have hmore : p.pieces = lead p.anchor ++ (dropBlankEnd init ++ (blanks' ++ x :: blanks)) := by
    conv_lhs => rw [hpieces, h, hinit]
    simp
  rw [← intercalate_pieces p, hmore]
  obtain ⟨rest, hrest⟩ := exists_intercalate_append (dropBlankEnd init) (blanks' ++ x :: blanks)
  cases p.anchor with
  | free => exact ⟨rest, hrest⟩
  | root =>
      have hslash : ∀ ps : List String, ps ≠ [] →
          String.intercalate "/" ("" :: ps) = "/" ++ String.intercalate "/" ps := by
        intro ps hps
        obtain ⟨y, ys, rfl⟩ := List.exists_cons_of_ne_nil hps
        rw [String.intercalate_cons_cons, String.empty_append]
      refine ⟨rest, ?_⟩
      rw [lead, List.singleton_append, hslash _ (by simp), hrest, ofBody, String.append_assoc]
  | here => exact exists_intercalate_append ("." :: dropBlankEnd init) (blanks' ++ x :: blanks)

end Parent

theorem getD_parent?_of_body (h : p.body = []) : p.parent?.getD ⟨""⟩ = ⟨""⟩ := by
  rw [parent?, h]
  cases p.anchor <;> rfl

theorem exists_text_join (q : Path) (name : String) :
    ∃ rest, (q.join name).text = q.text ++ rest := by
  rw [join]
  split
  · rename_i h
    have htext : q.text = "" := by
      rw [List.getLast?_eq_none_iff] at h
      exact String.toList_inj.mp h
    exact ⟨name, by rw [htext, String.empty_append]⟩
  · exact ⟨name, rfl⟩
  · exact ⟨"/" ++ name, by rw [String.append_assoc]⟩

/-- A file in a directory is the piece after those of the directory. A slash at the end of the
directory does not count, and neither does an empty directory. -/
theorem exists_pieces_join (q : Path) (hname : '/' ∉ name.toList) :
    ∃ front, (q.join name).pieces = front ++ [name] ∧
      (q.pieces = front ∨ q.pieces = front ++ [""]) := by
  obtain ⟨text⟩ := q
  rw [join]
  split
  · rename_i h
    obtain rfl : text = "" := by
      rw [List.getLast?_eq_none_iff] at h
      exact String.toList_inj.mp h
    exact ⟨[], pieces_of_notMem hname, .inr rfl⟩
  · rename_i h
    obtain ⟨cs, hcs⟩ := List.getLast?_eq_some_iff.mp h
    obtain rfl : text = String.ofList cs ++ "/" := by
      rw [← String.toList_inj, hcs]
      simp
    refine ⟨pieces ⟨String.ofList cs⟩, ?_, .inr ?_⟩
    · rw [pieces_append_slash, pieces_of_notMem hname]
    · have hempty := pieces_append_slash (String.ofList cs) ""
      rwa [String.append_empty] at hempty
  · exact ⟨pieces ⟨text⟩, by rw [pieces_append_slash, pieces_of_notMem hname], .inl rfl⟩

theorem moves_join (hname : '/' ∉ name.toList) (hmove : isBlankPiece name = false) :
    (q.join name).moves = q.moves ++ [name] := by
  have hempty : isBlankPiece "" = true := rfl
  obtain ⟨front, hjoin, hdir | hdir⟩ := exists_pieces_join q hname <;>
    simp [moves, hjoin, hdir, hmove, hempty]

theorem anchor_eq_root_iff_head? : p.anchor = .root ↔ p.text.toList.head? = some '/' := by
  rw [anchor_eq_root_iff, pieces_eq]
  cases p.text.toList with
  | nil => simp
  | cons c cs =>
      by_cases hc : c = '/'
      · subst hc
        rw [split_slash]
        simp [split]
      · simp [split_cons hc, hc]

/-- A file in a directory is reached from where the directory is. -/
theorem anchor_join (hname : '/' ∉ name.toList) :
    (q.join name).anchor = .root ↔ q.anchor = .root := by
  by_cases hq : q.text = ""
  · have hjoin : (q.join name).text = name := by
      simp [join, hq]
    have hhead : name.toList.head? ≠ some '/' := fun h => hname (List.mem_of_head? h)
    simp [anchor_eq_root_iff_head?, hjoin, hq, hhead]
  · obtain ⟨rest, hrest⟩ := exists_text_join q name
    have hne : q.text.toList ≠ [] := by simpa using hq
    rw [anchor_eq_root_iff_head?, anchor_eq_root_iff_head?, hrest, String.toList_append,
      List.head?_append_of_ne_nil _ hne]

/-! ## Paths that say the same -/

/-- The paths differ at most in slashes and dots that lead nowhere. -/
def SaysSame (p q : Path) : Prop := (p.anchor = .root ↔ q.anchor = .root) ∧ p.moves = q.moves

instance : Decidable (p.SaysSame q) := inferInstanceAs (Decidable (_ ∧ _))

example : SaysSame ⟨"out/a.cc"⟩ ⟨"out//./a.cc/"⟩ ∧ ¬SaysSame ⟨"out/a.cc"⟩ ⟨"/out/a.cc"⟩ := by decide

/-- A name that leads into a directory. -/
structure IsFileName (name : String) : Prop where
  no_slash : '/' ∉ name.toList
  ne_empty : name ≠ ""
  ne_dot : name ≠ "."
  ne_up : name ≠ ".."

theorem IsFileName.isBlankPiece_eq (h : IsFileName name) : isBlankPiece name = false := by
  simp [isBlankPiece, h.ne_empty, h.ne_dot]

/-- The path of a file in the same directory. -/
def sibling (p : Path) (name : String) : Path := (p.parent?.getD ⟨""⟩).join name

/-- A path without moves is its own directory, and its siblings are where walks start. Otherwise
siblings differ from the path in the last move. -/
theorem moves_sibling (hname : IsFileName name) :
    (p.moves = [] ∧ (p.sibling name).moves = [name] ∧ (p.sibling name).anchor ≠ .root) ∨
      ∃ init x, isBlankPiece x = false ∧ p.moves = init ++ [x] ∧
        (p.sibling name).moves = init ++ [name] ∧
        ((p.sibling name).anchor = .root ↔ p.anchor = .root) := by
  rw [sibling, moves_join hname.no_slash hname.isBlankPiece_eq, Ne, anchor_join hname.no_slash]
  rcases List.eq_nil_or_concat p.body with hbody | ⟨init, x, hbody⟩
  · left
    rw [getD_parent?_of_body hbody, moves_eq_filter_body, hbody]
    exact ⟨rfl, rfl, by decide⟩
  · right
    rw [List.concat_eq_append] at hbody
    rw [parent?_of_body hbody, Option.getD_some]
    exact ⟨_, x, isBlankPiece_of_body hbody, moves_parent hbody, rfl, anchor_parent hbody⟩

end IdlBindings.Path
