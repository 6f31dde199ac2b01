import IdlBindings.Proofs.Binding.ArgumentRoom

/-!
# Tables of signatures

A callback with several signatures writes them down as a table, and the support header picks from
what is written. So the table has to tell apart all lists of candidates. It is made of parts that
can be read in one way only: what a position expects ends before a comma or a blank, a number before
a blank, and after each item a list either goes on or is closed. Rows and tables have an end of
their own, so what stands behind them does not matter.

## Main definitions

* `UniquelyReadable`: what is written can be read in one way
* `writeItems`: items with something between them and something at the end
-/
namespace IdlBindings

/-! ## Reading in one way -/

section Reading

variable {α : Type} {write : α → List Char} {After : List Char → Prop} {p : Char → Bool}
  {between close : List Char}

/-- A text that starts with something written, and goes on in an admitted way, starts with nothing
else that goes on in an admitted way. -/
def UniquelyReadable (write : α → List Char) (After : List Char → Prop) : Prop :=
  ∀ ⦃a b : α⦄ ⦃x y : List Char⦄, After x → After y → write a ++ x = write b ++ y → a = b ∧ x = y

/-- The text starts with a character of another kind. -/
def StopsAt (p : Char → Bool) (x : List Char) : Prop := ∃ c rest, x = c :: rest ∧ p c = false

/-- Words of one kind of characters are cut off by a character of another kind. -/
theorem append_inj_of_stopsAt {u v x y : List Char} (hu : u.all p = true) (hv : v.all p = true)
    (hx : StopsAt p x) (hy : StopsAt p y) (h : u ++ x = v ++ y) : u = v ∧ x = y := by
  induction u generalizing v with
  | nil =>
      cases v with
      | nil => exact ⟨rfl, h⟩
      | cons d v =>
          obtain ⟨c, rest, rfl, hc⟩ := hx
          rw [List.nil_append, List.cons_append, List.cons.injEq] at h
          rw [List.all_cons, ← h.1, hc] at hv
          cases hv
  | cons c u ih =>
      rw [List.all_cons, Bool.and_eq_true] at hu
      cases v with
      | nil =>
          obtain ⟨d, rest, rfl, hd⟩ := hy
          rw [List.nil_append, List.cons_append, List.cons.injEq] at h
          rw [h.1, hd] at hu
          cases hu.1
      | cons d v =>
          rw [List.all_cons, Bool.and_eq_true] at hv
          rw [List.cons_append, List.cons_append, List.cons.injEq] at h
          obtain ⟨rfl, h⟩ := h
          obtain ⟨rfl, rfl⟩ := ih hu.2 hv.2 h
          exact ⟨rfl, rfl⟩

theorem uniquelyReadable_of_stopsAt (hwrite : ∀ a, (write a).all p = true)
    (hinj : Function.Injective write) : UniquelyReadable write (StopsAt p) := by
  intro a b x y hx hy h
  obtain ⟨hab, hxy⟩ := append_inj_of_stopsAt (hwrite a) (hwrite b) hx hy h
  exact ⟨hinj hab, hxy⟩

/-- Items one after the other, with something between them and something at the end. -/
def writeItems (write : α → List Char) (between close : List Char) : List α → List Char
  | [] => close
  | [a] => write a ++ close
  | a :: b :: rest => write a ++ between ++ writeItems write between close (b :: rest)

/-- A list that has items can be read if each item can, and if its end does not look like the start
of another item. -/
theorem writeItems_inj (hwrite : UniquelyReadable write After)
    (hbetween : ∀ x, After (between ++ x)) (hclose : ∀ x, After (close ++ x))
    (hne : ∀ x y, between ++ x ≠ close ++ y) {a b : α} {as bs : List α} {x y : List Char}
    (h : writeItems write between close (a :: as) ++ x =
      writeItems write between close (b :: bs) ++ y) : a :: as = b :: bs ∧ x = y := by
  induction as generalizing a b bs with
  | nil =>
      cases bs with
      | nil =>
          simp only [writeItems, List.append_assoc] at h
          obtain ⟨rfl, hxy⟩ := hwrite (hclose x) (hclose y) h
          exact ⟨rfl, List.append_cancel_left hxy⟩
      | cons b' bs =>
          simp only [writeItems, List.append_assoc] at h
          exact absurd (hwrite (hclose x) (hbetween _) h).2.symm (hne _ _)
  | cons a' as ih =>
      cases bs with
      | nil =>
          simp only [writeItems, List.append_assoc] at h
          exact absurd (hwrite (hbetween _) (hclose y) h).2 (hne _ _)
      | cons b' bs =>
          simp only [writeItems, List.append_assoc] at h
          obtain ⟨rfl, hitems⟩ := hwrite (hbetween _) (hbetween _) h
          obtain ⟨hrest, rfl⟩ := ih (List.append_cancel_left hitems)
          exact ⟨congrArg (a :: ·) hrest, rfl⟩

end Reading

/-! ## Rows -/

theorem expectedText_injective : Function.Injective expectedText := by
  have hall : ∀ e ∈ none :: ValueCategory.all.map some, ∀ e' ∈ none :: ValueCategory.all.map some,
      expectedText e = expectedText e' → e = e' := by decide
  have hmem : ∀ e, e ∈ none :: ValueCategory.all.map some := by
    intro e
    cases e with
    | none => exact List.mem_cons_self
    | some v => exact List.mem_cons_of_mem _ (List.mem_map_of_mem v.mem_all)
  exact fun e e' => hall e (hmem e) e' (hmem e')

/-- What a position expects ends before a blank or a comma. -/
theorem uniquelyReadable_expectedText : UniquelyReadable (fun e => (expectedText e).toList)
    (StopsAt fun ch => ch != ' ' && ch != ',') := by
  refine uniquelyReadable_of_stopsAt (fun e => ?_) fun e e' h => ?_
  · cases e with
    | none => decide
    | some v => cases v <;> decide
  · exact expectedText_injective (String.toList_inj.mp h)

theorem uniquelyReadable_decimal :
    UniquelyReadable (fun n : Nat => (toString n).toList) (StopsAt Char.isDigit) := by
  refine uniquelyReadable_of_stopsAt (fun n => ?_) fun n n' h => ?_
  · rw [Nat.toString_eq_repr, Nat.toList_repr, List.all_eq_true]
    exact fun ch hch => Nat.isDigit_of_mem_toDigits (by decide) (by decide) hch
  · have hdigits : Nat.toDigits 10 n = Nat.toDigits 10 n' := by
      rwa [Nat.toString_eq_repr, Nat.toString_eq_repr, Nat.toList_repr, Nat.toList_repr] at h
    rw [← Nat.ofDigitChars_ten_toDigits (n := n), hdigits, Nat.ofDigitChars_ten_toDigits]

/-- The list of what a row expects, from its opening brace on. -/
def expectedChars : List (Option ValueCategory) → List Char
  | [] => ['\x7b', '\x7d']
  | es =>
    '\x7b' :: ' ' :: writeItems (fun e => (expectedText e).toList) [',', ' '] [' ', '\x7d'] es

/-- Such a list ends with its closing brace, whatever follows. -/
theorem uniquelyReadable_expectedChars : UniquelyReadable expectedChars fun _ => True := by
  intro es es' x y _ _ h
  cases es with
  | nil =>
      cases es' with
      | nil => exact ⟨rfl, List.append_cancel_left h⟩
      | cons e' es' => simp [expectedChars] at h
  | cons e es =>
      cases es' with
      | nil => simp [expectedChars] at h
      | cons e' es' =>
          simp only [expectedChars, List.cons_append, List.cons.injEq, true_and] at h
          exact writeItems_inj uniquelyReadable_expectedText (fun x => ⟨',', _, rfl, rfl⟩)
            (fun x => ⟨' ', _, rfl, rfl⟩) (by simp) h

theorem toList_intercalate_expected (e : Option ValueCategory) (es : List (Option ValueCategory)) :
    (String.intercalate ", " ((e :: es).map expectedText) ++ " \x7d").toList =
      writeItems (fun e => (expectedText e).toList) [',', ' '] [' ', '\x7d'] (e :: es) := by
  induction es generalizing e with
  | nil => simp [writeItems]
  | cons e' es ih =>
      have hrest := ih e'
      simp only [List.map_cons, String.intercalate_cons_cons, String.toList_append] at hrest ⊢
      rw [writeItems, ← hrest]
      simp

theorem Candidate.toList_row (c : Candidate) :
    c.row.toList = '\x7b' :: ' ' :: (expectedChars c.expected ++
      ',' :: ' ' :: ((toString c.required).toList ++ [' ', '\x7d'])) := by
  obtain ⟨expected, required⟩ := c
  cases expected with
  | nil => simp [row, expectedChars]
  | cons e es =>
      have hlist := toList_intercalate_expected e es
      simp only [row, expectedChars, ← hlist]
      simp

/-- A row ends with its closing brace, whatever follows. -/
theorem Candidate.uniquelyReadable_row :
    UniquelyReadable (fun c : Candidate => c.row.toList) fun _ => True := by
  intro c d x y _ _ h
  simp only [toList_row, List.cons_append, List.append_assoc, List.cons.injEq, true_and] at h
  obtain ⟨hexpected, h⟩ := uniquelyReadable_expectedChars trivial trivial h
  simp only [List.cons.injEq, true_and] at h
  obtain ⟨hrequired, hrest⟩ := uniquelyReadable_decimal ⟨' ', _, rfl, rfl⟩ ⟨' ', _, rfl, rfl⟩ h
  simp only [List.nil_append, List.cons.injEq, true_and] at hrest
  obtain ⟨expected, required⟩ := c
  obtain ⟨expected', required'⟩ := d
  obtain rfl : expected = expected' := hexpected
  obtain rfl : required = required' := hrequired
  exact ⟨rfl, hrest⟩

/-! ## The table -/

theorem toList_codeText (lines : List String) :
    (codeText lines).toList = lines.flatMap fun line => line.toList ++ ['\n'] := by
  simp [codeText, String.toList_join, List.flatMap_map]

/-- A row of the table as it stands in the text. -/
def rowChars (indent : String) (c : Candidate) : List Char :=
  indent.toList ++ ' ' :: ' ' :: c.row.toList

theorem uniquelyReadable_rowChars (indent : String) :
    UniquelyReadable (rowChars indent) fun _ => True := by
  intro c d x y _ _ h
  simp only [rowChars, List.append_assoc, List.cons_append] at h
  have hrows := List.append_cancel_left h
  simp only [List.cons.injEq, true_and] at hrows
  exact Candidate.uniquelyReadable_row trivial trivial hrows

theorem toList_indentLine_row (indent : String) (c : Candidate) (mark : String) :
    (indentLine indent (indentLine "  " (c.row ++ mark))).toList =
      rowChars indent c ++ mark.toList := by
  have hrow : c.row ++ mark ≠ "" := by
    rw [ne_eq, ← String.toList_inj, String.toList_append, Candidate.toList_row]
    simp
  have hdeep : "  " ++ (c.row ++ mark) ≠ "" := by
    rw [ne_eq, ← String.toList_inj]
    simp
  rw [indentLine, indentLine, if_neg hrow, if_neg hdeep]
  simp [rowChars]

/-- The rows of a table that has some, and what follows them. -/
theorem toList_rows (indent : String) (c : Candidate) (cs : List Candidate) (rest : List Char) :
    (codeText (indentLines indent
        (deeper (commaLines ((c :: cs).map Candidate.row))))).toList ++ rest =
      writeItems (rowChars indent) [',', '\n'] ('\n' :: rest) (c :: cs) := by
  induction cs generalizing c with
  | nil =>
      have hrow := toList_indentLine_row indent c ""
      rw [String.append_empty] at hrow
      simp [toList_codeText, indentLines, deeper, commaLines, writeItems, hrow]
  | cons d cs ih =>
      rw [writeItems, ← ih d]
      simp [toList_codeText, indentLines, deeper, commaLines, toList_indentLine_row]

/-- The text of a table: the line before its rows, the rows, and the line after them. -/
theorem exists_toList_signatureTable (indent : String) :
    ∃ before : List Char, ∀ cs, (codeText (indentLines indent (signatureTable cs))).toList =
      before ++ ((codeText (indentLines indent
        (deeper (commaLines (cs.map Candidate.row))))).toList ++
          (indent.toList ++ ['\x7d', ';', '\n'])) := by
  obtain ⟨header, hheader⟩ : ∃ header, ∀ cs, signatureTable cs =
      header :: deeper (commaLines (cs.map Candidate.row)) ++ ["\x7d;"] := ⟨_, fun _ => rfl⟩
  have hclose : indentLine indent "\x7d;" = indent ++ "\x7d;" := if_neg (by decide)
  refine ⟨(indentLine indent header).toList ++ ['\n'], fun cs => ?_⟩
  simp [hheader, toList_codeText, indentLines, hclose]

/-- A line feed before the indentation is no blank behind it. -/
theorem newline_append_ne (indent u v : List Char) :
    '\n' :: (indent ++ u) ≠ indent ++ ' ' :: v := by
  induction indent with
  | nil => simp
  | cons c indent ih =>
      intro h
      rw [List.cons_append, List.cons_append, List.cons.injEq] at h
      obtain ⟨rfl, h⟩ := h
      exact ih h

/-- A table without rows is no beginning of one that has some. -/
theorem rows_nil_ne (indent : String) (c : Candidate) (cs : List Candidate)
    (rest x y : List Char) :
    (codeText (indentLines indent (deeper (commaLines ([].map Candidate.row))))).toList ++
        (indent.toList ++ rest) ++ x ≠
      writeItems (rowChars indent) [',', '\n'] ('\n' :: (indent.toList ++ rest)) (c :: cs) ++
        y := by
  have hempty : (codeText (indentLines indent
      (deeper (commaLines ([].map Candidate.row))))).toList = ['\n'] := by
    simp [toList_codeText, indentLines, indentLine, deeper, commaLines]
  obtain ⟨more, hmore⟩ : ∃ more, writeItems (rowChars indent) [',', '\n']
      ('\n' :: (indent.toList ++ rest)) (c :: cs) = rowChars indent c ++ more := by
    cases cs with
    | nil => exact ⟨_, rfl⟩
    | cons d cs => exact ⟨_, List.append_assoc _ _ _⟩
  rw [hempty, hmore, rowChars]
  simpa using newline_append_ne indent.toList (rest ++ x) (' ' :: (c.row.toList ++ (more ++ y)))

/-- A table can be read in one way, whatever follows it. -/
theorem uniquelyReadable_signatureTable (indent : String) : UniquelyReadable
    (fun cs => (codeText (indentLines indent (signatureTable cs))).toList) fun _ => True := by
  obtain ⟨before, htable⟩ := exists_toList_signatureTable indent
  intro cs ds x y _ _ h
  simp only [htable, List.append_assoc before] at h
  have hrows := List.append_cancel_left h
  cases cs with
  | nil =>
      cases ds with
      | nil => exact ⟨rfl, List.append_cancel_left hrows⟩
      | cons d ds =>
          rw [toList_rows indent d ds] at hrows
          exact absurd hrows (rows_nil_ne indent d ds _ x y)
  | cons c cs =>
      rw [toList_rows indent c cs] at hrows
      cases ds with
      | nil => exact absurd hrows.symm (rows_nil_ne indent c cs _ y x)
      | cons d ds =>
          rw [toList_rows indent d ds] at hrows
          exact writeItems_inj (uniquelyReadable_rowChars indent) (fun _ => trivial)
            (fun _ => trivial) (by simp) hrows

/-- The candidates of a table are told by the lines that it is the beginning of. -/
theorem signatureTable_append_inj {cs ds : List Candidate} {after after' : List String}
    (h : signatureTable cs ++ after = signatureTable ds ++ after') : cs = ds := by
  have hflat : ∀ lines, indentLines "" lines = lines := by
    intro lines
    refine (List.map_congr_left fun line _ => ?_).trans (List.map_id lines)
    by_cases hline : line = "" <;> simp [indentLine, hline]
  have htext := congrArg (fun lines => (codeText lines).toList) h
  simp only [toList_codeText, List.flatMap_append] at htext
  simp only [← toList_codeText] at htext
  rw [← hflat (signatureTable cs), ← hflat (signatureTable ds)] at htext
  exact (uniquelyReadable_signatureTable "" trivial trivial htext).1

/-- The code for several signatures starts with the table of their candidates. -/
theorem Model.exists_lines_overloads (m : Model) {calls : List Invocation} (name : String)
    (hcalls : 1 < calls.length) : ∃ after, (m.overloads calls name).lines =
      signatureTable ((calls.map Invocation.arguments).map (Candidate.ofArguments m)) ++ after := by
  have hpick : ∀ cs, (Block.ofActions [.pick cs name, .blank]).lines =
      dispatchLines cs name ++ [""] := fun _ => rfl
  have htable : ∀ cs, ∃ more, dispatchLines cs name = signatureTable cs ++ more :=
    fun _ => ⟨_, rfl⟩
  obtain ⟨more, hmore⟩ := htable (calls.map fun call => Candidate.ofArguments m call.arguments)
  rw [overloads_of_length_ne_one (Nat.ne_of_gt hcalls), Block.lines_append, hpick, hmore,
    List.append_assoc, List.append_assoc, List.map_map]
  exact ⟨_, rfl⟩

/-- **A table of signatures determines its candidates.** At every indentation, the texts of two
tables are the same just if the tables have the same rows in the same order. That holds as well
where more code follows. So the table that the code for several signatures starts with can be read
as one of the candidates that are checked for shadowing, and as no other. -/
theorem signatureTable_determines_candidates :
    (∀ indent cs ds, codeText (indentLines indent (signatureTable cs)) =
      codeText (indentLines indent (signatureTable ds)) ↔ cs = ds) ∧
    (∀ indent cs ds rest rest', codeText (indentLines indent (signatureTable cs)) ++ rest =
      codeText (indentLines indent (signatureTable ds)) ++ rest' ↔ cs = ds ∧ rest = rest') ∧
    ∀ (m : Model) (calls : List Invocation) (name : String) (cs : List Candidate),
      1 < calls.length → ((∃ after, (m.overloads calls name).lines = signatureTable cs ++ after) ↔
        cs = (calls.map Invocation.arguments).map (Candidate.ofArguments m)) := by
  have hreads : ∀ indent cs ds rest rest',
      codeText (indentLines indent (signatureTable cs)) ++ rest =
        codeText (indentLines indent (signatureTable ds)) ++ rest' → cs = ds ∧ rest = rest' := by
    intro indent cs ds rest rest' h
    rw [← String.toList_inj, String.toList_append, String.toList_append] at h
    obtain ⟨hcs, hrest⟩ := uniquelyReadable_signatureTable indent trivial trivial h
    exact ⟨hcs, String.toList_inj.mp hrest⟩
  refine ⟨fun indent cs ds => ?_, fun indent cs ds rest rest' => ?_, ?_⟩
  · exact ⟨fun h => (hreads indent cs ds "" "" (by rw [h])).1, fun h => by rw [h]⟩
  · refine ⟨hreads indent cs ds rest rest', ?_⟩
    rintro ⟨rfl, rfl⟩
    rfl
  · intro m calls name cs hcalls
    obtain ⟨after, hlines⟩ := m.exists_lines_overloads name hcalls
    constructor
    · rintro ⟨after', hlines'⟩
      exact signatureTable_append_inj (hlines'.symm.trans hlines)
    · rintro rfl
      exact ⟨after, hlines⟩

/-- Flashes once, or a number of times, which may be left out as well. -/
def flashCalls : List Invocation :=
  [⟨.method "flash", [], none, "Lamp.flash"⟩,
    ⟨.method "flash", [⟨"times", .named "long", true, false, none⟩], none, "Lamp.flash"⟩]

theorem signatureTable_determines_candidates_flashCalls :
    1 < flashCalls.length ∧
      (∃ after, (Model.overloads ⟨[], [], [], []⟩ flashCalls "Lamp.flash").lines =
        signatureTable [⟨[], 0⟩, ⟨[some .number], 0⟩] ++ after) ∧
      codeText (indentLines "  " (signatureTable [⟨[], 0⟩, ⟨[some .number], 0⟩])) ≠
        codeText (indentLines "  " (signatureTable [⟨[], 0⟩, ⟨[none], 0⟩])) := by
  have hcalls : 1 < flashCalls.length := by decide
  obtain ⟨htexts, _, hcode⟩ := signatureTable_determines_candidates
  exact ⟨hcalls, (hcode ⟨[], [], [], []⟩ flashCalls "Lamp.flash" _ hcalls).mpr rfl,
    mt (htexts "  " _ _).mp (by decide)⟩

end IdlBindings
