import IdlBindings.Binding.Rule
import Mathlib.Data.List.Basic

/-!
# Running tests

Converters of enumerations are written as tests in order, each with the statement for its case. Here
such code is run line by line. A line opens a case, closes it or is a statement, and of the
statements between the first test and the closing brace only those of one case run. So tests that
are written out run the statement of the first condition that holds. What a function has assigned
by then and what it returns is all that its caller sees.

## Main definitions

* `between?`: what stands between the beginning and the end of a line
* `LineKind`: what a line does to the course of the code
* `executed`: the statements that run
* `ending`: what statements assign and return
-/
namespace IdlBindings

/-! ## Lines -/

/-- What stands between the beginning and the end of a line. -/
def between? (first last line : String) : Option String :=
  ((line.toList.dropPrefix? first.toList).bind fun rest => rest.dropSuffix? last.toList).map
    String.ofList

theorem between?_append (first last inner : String) :
    between? first last (first ++ inner ++ last) = some inner := by
  have hfirst : (first ++ inner ++ last).toList.dropPrefix? first.toList =
      some (inner ++ last).toList := by
    rw [List.dropPrefix?_eq_some_iff]
    exact ⟨first.toList, by simp, by simp⟩
  have hlast : (inner ++ last).toList.dropSuffix? last.toList = some inner.toList := by
    rw [List.dropSuffix?_eq_some_iff]
    exact ⟨last.toList, by simp, by simp⟩
  rw [between?, hfirst, Option.bind_some, hlast, Option.map_some, String.ofList_toList]

/-- The first character of a line may tell that it begins in another way. -/
theorem between?_of_head? {first last line : String} {c d : Char}
    (hfirst : first.toList.head? = some d) (hline : line.toList.head? = some c) (hne : c ≠ d) :
    between? first last line = none := by
  obtain ⟨ds, hds⟩ := List.head?_eq_some_iff.mp hfirst
  obtain ⟨cs, hcs⟩ := List.head?_eq_some_iff.mp hline
  simp [between?, hds, hcs, List.dropPrefix?, hne]

/-- What a line does to the course of the code. -/
inductive LineKind where
  /-- Opens the case of a condition. -/
  | test (condition : String)
  /-- Opens the case of a condition for when no case before it has run. -/
  | elseTest (condition : String)
  /-- Opens the case for when no other has run. -/
  | otherwise
  /-- Closes the last case. -/
  | close
  | statement
deriving DecidableEq, Repr

def LineKind.ofLine (line : String) : LineKind :=
  match between? "if (" ") \x7b" line, between? "\x7d else if (" ") \x7b" line with
  | some condition, _ => test condition
  | none, some condition => elseTest condition
  | none, none =>
    if line = "\x7d else \x7b" then otherwise else if line = "\x7d" then close else statement

theorem ofLine_test (condition : String) :
    LineKind.ofLine ("if (" ++ condition ++ ") \x7b") = .test condition := by
  rw [LineKind.ofLine, between?_append]

theorem ofLine_elseTest (condition : String) :
    LineKind.ofLine ("\x7d else if (" ++ condition ++ ") \x7b") = .elseTest condition := by
  have hif : between? "if (" ") \x7b" ("\x7d else if (" ++ condition ++ ") \x7b") = none := by
    refine between?_of_head? (c := '\x7d') (d := 'i') (by decide) ?_ (by decide)
    simp
  rw [LineKind.ofLine, between?_append, hif]

theorem ofLine_otherwise : LineKind.ofLine "\x7d else \x7b" = .otherwise := rfl

theorem ofLine_close : LineKind.ofLine "\x7d" = .close := rfl

/-- A line that starts with another character than those of a test or a closing brace is a
statement. -/
theorem ofLine_of_head? {line : String} {c : Char} (h : line.toList.head? = some c)
    (htest : c ≠ 'i') (hbrace : c ≠ '\x7d') : LineKind.ofLine line = .statement := by
  have hif : between? "if (" ") \x7b" line = none := between?_of_head? (by decide) h htest
  have helse : between? "\x7d else if (" ") \x7b" line = none :=
    between?_of_head? (by decide) h hbrace
  have hother : line ≠ "\x7d else \x7b" := by
    rintro rfl
    exact hbrace (by simpa using h.symm)
  have hclose : line ≠ "\x7d" := by
    rintro rfl
    exact hbrace (by simpa using h.symm)
  simp only [LineKind.ofLine, hif, helse, if_neg hother, if_neg hclose]

/-- A line that is set deeper neither opens nor closes a case. -/
theorem ofLine_deeper (line : String) : LineKind.ofLine ("  " ++ line) = .statement :=
  ofLine_of_head? (c := ' ') (by simp) (by decide) (by decide)

/-! ## The course of code -/

/-- Where the code stands. -/
inductive Course where
  /-- Outside all cases. -/
  | outside
  /-- In a case that does not run, before any that does. -/
  | waiting
  /-- In the case that runs. -/
  | running
  /-- In a case behind the one that has run. -/
  | past
deriving DecidableEq, Repr

variable (holds : String → Bool)

/-- Where the code stands after a line, where `holds` tells the conditions that hold. -/
def Course.next (holds : String → Bool) : Course → LineKind → Course
  | outside, .test condition => if holds condition then running else waiting
  | waiting, .elseTest condition => if holds condition then running else waiting
  | waiting, .otherwise => running
  | running, .elseTest _ => past
  | running, .otherwise => past
  | _, .close => outside
  | course, _ => course

/-- The statement of a line where the code stands. In a case statements are set deeper. -/
def Course.statement : Course → String → List String
  | outside, line => [line]
  | running, line => (between? "  " "" line).toList
  | _, _ => []

theorem statement_deeper (statement : String) :
    Course.running.statement ("  " ++ statement) = [statement] := by
  have hinner := between?_append "  " "" statement
  rw [String.append_empty] at hinner
  rw [Course.statement, hinner]
  rfl

/-- The statements that run, in order. -/
def executed (holds : String → Bool) : Course → List String → List String
  | _, [] => []
  | course, line :: lines =>
    let kind := LineKind.ofLine line
    (if kind = .statement then course.statement line else []) ++
      executed holds (course.next holds kind) lines

theorem executed_statement {line : String} (h : LineKind.ofLine line = .statement)
    (lines : List String) :
    executed holds .outside (line :: lines) = line :: executed holds .outside lines := by
  simp [executed, h, Course.next, Course.statement]

theorem executed_statements {lines : List String}
    (h : ∀ line ∈ lines, LineKind.ofLine line = .statement) (rest : List String) :
    executed holds .outside (lines ++ rest) = lines ++ executed holds .outside rest := by
  induction lines with
  | nil => rfl
  | cons line lines ih =>
      rw [List.cons_append, executed_statement holds (h line List.mem_cons_self),
        ih fun l hl => h l (List.mem_cons_of_mem line hl), List.cons_append]

/-! ## Tests in order -/

/-- The lines of the last case. -/
def otherwiseLines (otherwise : String) : List String :=
  ["\x7d else \x7b", "  " ++ otherwise, "\x7d"]

/-- Behind the case that runs, no other runs. -/
theorem executed_behind {course : Course} (hcourse : course = .running ∨ course = .past)
    (tests : List (String × String)) (otherwise : String) (rest : List String) :
    executed holds course (elseTestLines tests ++ otherwiseLines otherwise ++ rest) =
      executed holds .outside rest := by
  induction tests generalizing course with
  | nil =>
      rcases hcourse with rfl | rfl <;>
        simp [elseTestLines, otherwiseLines, executed, Course.next, Course.statement,
          ofLine_otherwise, ofLine_deeper, ofLine_close]
  | cons t tests ih =>
      have hnext : course.next holds (.elseTest t.1) = .past := by
        rcases hcourse with rfl | rfl <;> rfl
      simp only [elseTestLines, List.cons_append, List.nil_append, executed, ofLine_elseTest, hnext,
        ofLine_deeper]
      simpa [Course.next, Course.statement] using ih (.inr rfl)

/-- The statement of the first test that holds, or the one for when none does. -/
def chosen (holds : String → Bool) (tests : List (String × String)) (otherwise : String) : String :=
  ((tests.find? fun t => holds t.1).map Prod.snd).getD otherwise

/-- As long as no case has run, the next test decides. -/
theorem executed_waiting (tests : List (String × String)) (otherwise : String)
    (rest : List String) :
    executed holds .waiting (elseTestLines tests ++ otherwiseLines otherwise ++ rest) =
      chosen holds tests otherwise :: executed holds .outside rest := by
  induction tests with
  | nil =>
      simp [elseTestLines, otherwiseLines, executed, Course.next, ofLine_otherwise, ofLine_deeper,
        ofLine_close, statement_deeper, chosen]
  | cons t tests ih =>
      by_cases ht : holds t.1 = true
      · have hbehind := executed_behind holds (.inl rfl) tests otherwise rest
        simpa [elseTestLines, executed, ofLine_elseTest, ofLine_deeper, statement_deeper,
          Course.next, ht, chosen] using hbehind
      · simpa [elseTestLines, executed, ofLine_elseTest, ofLine_deeper, Course.statement,
          Course.next, ht, chosen] using ih

/-- **Tests run the statement of the first that holds.** -/
theorem executed_testLines (tests : List (String × String)) {otherwise : String}
    (hotherwise : LineKind.ofLine otherwise = .statement) (rest : List String) :
    executed holds .outside (testLines tests otherwise ++ rest) =
      chosen holds tests otherwise :: executed holds .outside rest := by
  cases tests with
  | nil => exact executed_statement holds hotherwise rest
  | cons t tests =>
      by_cases ht : holds t.1 = true
      · have hbehind := executed_behind holds (.inl rfl) tests otherwise rest
        simpa [testLines, otherwiseLines, executed, ofLine_test, ofLine_deeper, statement_deeper,
          Course.next, ht, chosen] using hbehind
      · have hwaiting := executed_waiting holds tests otherwise rest
        simpa [testLines, otherwiseLines, executed, ofLine_test, ofLine_deeper, Course.statement,
          Course.next, ht, chosen] using hwaiting

/-! ## What comes out -/

/-- What the caller of a function sees: what is assigned and what is returned. -/
structure Ending where
  assigned : Option String
  returned : Option String
deriving DecidableEq, Repr

/-- What statements come to that run in order, where `assignment` begins the assignments to the
variable that counts. Nothing runs behind a return, and the last assignment before it counts. -/
def ending (assignment : String) : List String → Ending
  | [] => ⟨none, none⟩
  | line :: lines =>
    match between? "return " ";" line with
    | some value => ⟨none, some value⟩
    | none =>
      let rest := ending assignment lines
      ⟨rest.assigned.or (between? assignment ";" line), rest.returned⟩

variable {assignment : String}

theorem ending_return (value : String) (lines : List String) :
    ending assignment (("return " ++ value ++ ";") :: lines) = ⟨none, some value⟩ := by
  rw [ending, between?_append]

/-- An assignment that a return follows. -/
theorem ending_assignment {first : Char} (hfirst : assignment.toList.head? = some first)
    (hne : first ≠ 'r') (value returned : String) (lines : List String) :
    ending assignment ((assignment ++ value ++ ";") :: ("return " ++ returned ++ ";") :: lines) =
      ⟨some value, some returned⟩ := by
  have hreturn : between? "return " ";" (assignment ++ value ++ ";") = none :=
    between?_of_head? (c := first) (by decide) (by simp [hfirst]) hne
  rw [ending, hreturn, ending_return, between?_append]
  rfl

/-- A statement that neither returns nor assigns to the variable of `assignment`. -/
structure IsAside (assignment line : String) : Prop where
  statement : LineKind.ofLine line = .statement
  not_return : between? "return " ";" line = none
  not_assignment : between? assignment ";" line = none

/-- The first character of a line may tell that it is aside. -/
theorem isAside_of_head? {line : String} {first c : Char}
    (hfirst : assignment.toList.head? = some first) (h : line.toList.head? = some c)
    (hc : c ∉ [first, 'r', 'i', '\x7d']) : IsAside assignment line := by
  simp only [List.mem_cons, List.not_mem_nil, or_false, not_or] at hc
  obtain ⟨hne, hreturn, htest, hbrace⟩ := hc
  exact ⟨ofLine_of_head? h htest hbrace, between?_of_head? (by decide) h hreturn,
    between?_of_head? hfirst h hne⟩

theorem ending_append_of_isAside {before : List String}
    (h : ∀ line ∈ before, IsAside assignment line) (lines : List String) :
    ending assignment (before ++ lines) = ending assignment lines := by
  induction before with
  | nil => rfl
  | cons line before ih =>
      have hline := h line List.mem_cons_self
      simp only [List.cons_append, ending, hline.not_return, hline.not_assignment, Option.or_none]
      exact ih fun l hl => h l (List.mem_cons_of_mem line hl)

/-- Where the statements before the tests are aside, what comes out is decided by the first test
that holds and by what follows. -/
theorem ending_executed {before after : List String} (tests : List (String × String))
    {otherwise : String} (hbefore : ∀ line ∈ before, IsAside assignment line)
    (hotherwise : LineKind.ofLine otherwise = .statement)
    (hafter : ∀ line ∈ after, LineKind.ofLine line = .statement) :
    ending assignment (executed holds .outside (before ++ testLines tests otherwise ++ after)) =
      ending assignment (chosen holds tests otherwise :: after) := by
  have hrest : executed holds .outside after = after := by
    simpa [executed] using executed_statements holds hafter []
  rw [List.append_assoc, executed_statements holds fun line hline => (hbefore line hline).statement,
    ending_append_of_isAside hbefore, executed_testLines holds tests hotherwise, hrest]

end IdlBindings
