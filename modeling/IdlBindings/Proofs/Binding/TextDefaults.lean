import IdlBindings.Proofs.Binding.AliasedArguments
import IdlBindings.Proofs.Definition.TypeTokens
import IdlBindings.Proofs.Model.Enumerators
import IdlBindings.Proofs.Text.Quoting
import IdlBindings.Proofs.Token.Blame
import IdlBindings.Proofs.Token.Decomposition
import IdlBindings.Tree.Definition
import Mathlib.Data.List.DropRight

/-!
# Texts as default values

A default value is kept as it is written, so a text has quotes around it from the time it is read
until the code for its argument is made. Taking the quotes off again takes all that stand at either
end. A text of a document has no quotes inside, and so it arrives as it was; a text of a tree may
have any, and arrives as it was exactly if it neither starts nor ends with one.

## Main definitions

* `Argument.IsWrittenWith`: the argument is read from a text with a literal as its default
* `ArgumentNode.HasText`: the node of an argument with a text as its default
* `Model.declaration?`: the code that declares the variable of an argument
* `Model.StartsWith`: the variable starts with a text
-/
namespace IdlBindings

open IdlBindings.Parser

/-! ## Quotes -/

/-- A text as it is kept for a default value. -/
def quoted (s : String) : String := "\"" ++ s ++ "\""

theorem toList_quoted (s : String) : (quoted s).toList = '"' :: s.toList ++ ['"'] := by
  simp [quoted]

def isQuote (c : Char) : Bool := c == '"'

theorem trimQuotes_eq (s : String) :
    trimQuotes s = String.ofList ((s.toList.dropWhile isQuote).rdropWhile isQuote) :=
  rfl

theorem trimQuotes_quoted (s : String) : trimQuotes (quoted s) = trimQuotes s := by
  have hquote : isQuote '"' = true := rfl
  rw [trimQuotes_eq, trimQuotes_eq, toList_quoted, List.cons_append, List.dropWhile_cons,
    if_pos hquote, List.dropWhile_append]
  split
  · next hempty =>
      rw [List.isEmpty_iff.mp hempty]
      rfl
  · rw [List.rdropWhile_concat_pos _ _ _ hquote]

theorem dropWhile_isQuote_eq_self_iff {cs : List Char} :
    cs.dropWhile isQuote = cs ↔ cs.head? ≠ some '"' := by
  rw [List.dropWhile_eq_self_iff]
  cases cs <;> simp [isQuote]

/-- Nothing is trimmed exactly if there is no quote at either end. -/
theorem trimQuotes_eq_self_iff {s : String} :
    trimQuotes s = s ↔ s.toList.head? ≠ some '"' ∧ s.toList.getLast? ≠ some '"' := by
  have hlast : s.toList.rdropWhile isQuote = s.toList ↔ s.toList.getLast? ≠ some '"' := by
    rw [List.rdropWhile, List.reverse_eq_iff, dropWhile_isQuote_eq_self_iff, List.head?_reverse]
  rw [trimQuotes_eq, ← String.toList_inj, String.toList_ofList, ← dropWhile_isQuote_eq_self_iff,
    ← hlast]
  constructor
  · intro h
    -- What is left is no longer than after the first step, so the first step took nothing.
    have hle := (List.rdropWhile_prefix isQuote (s.toList.dropWhile isQuote)).length_le
    rw [h] at hle
    have hfirst := (List.dropWhile_suffix isQuote).eq_of_length_le hle
    rw [hfirst] at h
    exact ⟨hfirst, h⟩
  · rintro ⟨hfirst, hlast⟩
    rw [hfirst, hlast]

/-! ## Reading a default -/

/-- A default that ends in a text literal is that text. -/
def KeepsText (taken : List TokenKind) (default : String) : Prop :=
  ∀ s, taken.getLast? = some (.text s) → default = quoted s

theorem consumes_parseDefault : Consumes parseDefault KeepsText := by
  refine Consumes.advance.bind ?_
  rintro _ found rfl
  cases found with
  | none => exact Consumes.fail _
  | some kind =>
      cases kind with
      | ident word => exact Consumes.pure (by simp [KeepsText])
      | text value => exact Consumes.pure (by simp [KeepsText, quoted])
      | number digits => exact Consumes.pure (by simp [KeepsText])
      | ellipsis => exact Consumes.fail _
      | punct mark =>
          cases mark with
          | minus =>
              refine Consumes.advance.bind ?_
              rintro _ found rfl
              rcases found with _ | ⟨word⟩ | _ | _ | _ | _
              · exact Consumes.fail _
              · exact Consumes.pure (by simp [KeepsText])
              all_goals exact Consumes.fail _
          | openBracket =>
              refine Consumes.expectPunct.bind ?_
              rintro _ _ rfl
              exact Consumes.pure (by simp [KeepsText])
          | openBrace =>
              refine Consumes.expectPunct.bind ?_
              rintro _ _ rfl
              exact Consumes.pure (by simp [KeepsText])
          | _ => exact Consumes.fail _

theorem getLast?_of_append_cons {front taken : List TokenKind} {kind : TokenKind} {s : String}
    (hkind : kind ≠ .text s) (h : (front ++ kind :: taken).getLast? = some (.text s)) :
    taken.getLast? = some (.text s) := by
  rw [List.getLast?_append, List.getLast?_cons] at h
  cases htaken : taken.getLast? with
  | none => simp [htaken, hkind] at h
  | some last => simpa [htaken] using h

/-- An argument ends in its name, or in its default if it has one. -/
theorem Argument.consumes_parse : Consumes Argument.parse fun taken a =>
    ∀ s, taken.getLast? = some (.text s) → a.default = some (quoted s) := by
  refine ExtAttr.consumes_parseList.bind fun attrs _ _ => ?_
  refine Consumes.eat.bind fun word optional _ => ?_
  refine IdlType.consumes_parse.bind fun type _ _ => Consumes.eat.bind fun dots variadic _ => ?_
  refine Consumes.expectIdent.bind ?_
  rintro _ name ⟨written, rfl⟩
  cases optional with
  | false => exact Consumes.pure (by simp)
  | true =>
      simp only [if_true]
      refine Consumes.eat_ite ?_ (Consumes.pure (by simp))
      have hsome : Consumes (some <$> parseDefault) fun taken default =>
          ∀ s, taken.getLast? = some (.text s) → default = some (quoted s) := by
        refine consumes_parseDefault.map fun taken default hdefault s hs => ?_
        rw [hdefault s hs]
      refine hsome.bind fun taken default hdefault => Consumes.pure fun s hs => hdefault s ?_
      simp only [List.append_nil, ← List.append_assoc] at hs
      exact getLast?_of_append_cons (by simp) hs

/-- The argument is read from the text of a document in which the literal `s` is its default. -/
def Argument.IsWrittenWith (a : Argument) (s : String) : Prop :=
  ∃ source whole rest left before, TokenStream.ofText source = .ok whole ∧ rest.LeftOf whole ∧
    Argument.parse rest = .ok (a, left) ∧
    rest.kinds = before ++ .punct .equals :: .text s :: left.kinds

/-- The node of an argument whose default is the text `s`. -/
def ArgumentNode.HasText (node : ArgumentNode) (s : String) : Prop :=
  ∃ negative, node.default = some ⟨"string", .string s, negative⟩

theorem ArgumentNode.HasText.default_eq {node : ArgumentNode} {s : String} (h : node.HasText s) :
    node.toArgument.default = some (quoted s) := by
  obtain ⟨negative, hdefault⟩ := h
  rw [toArgument, hdefault]
  rfl

namespace Argument.IsWrittenWith

variable {a : Argument} {s : String}

theorem default_eq (h : a.IsWrittenWith s) : a.default = some (quoted s) := by
  obtain ⟨_, _, rest, left, before, _, _, hparse, hkinds⟩ := h
  obtain ⟨_, taken, htaken, hdefault⟩ := Argument.consumes_parse rest a left hparse
  have hsame : taken = before ++ [.punct .equals, .text s] := by
    have heq : taken ++ left.kinds = before ++ [.punct .equals, .text s] ++ left.kinds := by
      rw [← htaken, hkinds]
      simp
    exact List.append_cancel_right heq
  exact hdefault s (by simp [hsame])

/-- A literal of a text holds no quote. -/
theorem trimQuotes_eq (h : a.IsWrittenWith s) : trimQuotes s = s := by
  obtain ⟨source, whole, rest, left, before, hsource, hrest, _, hkinds⟩ := h
  obtain ⟨_, _, _, hcut⟩ := exists_cut_of_ofText hsource
  have hmem : .text s ∈ whole.kinds := by
    have hsub : rest.kinds ⊆ whole.kinds := List.map_subset _ hrest.suffix.subset
    exact hsub (by simp [hkinds])
  have hquotable : s.toList.all (fun c => c ≠ '"' && c ≠ '\n') = true :=
    List.all_eq_true.mp hcut.areWritable _ hmem
  have hnone : '"' ∉ s.toList := by
    intro hquote
    simpa using List.all_eq_true.mp hquotable '"' hquote
  rw [trimQuotes_eq_self_iff]
  constructor
  · intro hhead
    exact hnone (List.mem_of_mem_head? hhead)
  · intro hlast
    exact hnone (List.mem_of_getLast? hlast)

end Argument.IsWrittenWith

/-! ## The code of an argument -/

/-- The line that declares the variable of an argument. -/
def Model.declaration? (m : Model) (a : Argument) (c : Conversion) (i : Nat) : Option String :=
  (m.argumentBlock a c i).lines.head?

/-- The declaration of a variable with a value. -/
def valueDeclaration (c : Conversion) (i : Nat) (value : String) : String :=
  c.native ++ " native_arg_" ++ toString i ++ " = " ++ value ++ ";"

/-- The variable of the argument starts with the text: as a literal if its type is a scalar, and as
the enumerator of the text if its type is an enumeration that has it. -/
structure Model.StartsWith (m : Model) (a : Argument) (c : Conversion) (i : Nat) (s : String) :
    Prop where
  scalar : (∃ kind, m.resolve? a.type = some (.name (.scalar kind))) →
    m.declaration? a c i = some (valueDeclaration c i (cString s))
  enumerator : ∀ e, m.resolve? a.type = some (.name (.enumeration e)) →
    ∀ v ∈ e.values, v.literal = s →
      m.declaration? a c i = some (valueDeclaration c i (e.name ++ "::" ++ v.ident))

/-- The type is a scalar, or an enumeration that has the text. -/
def Model.TakesText (m : Model) (t : IdlType) (s : String) : Prop :=
  (∃ kind, m.resolve? t = some (.name (.scalar kind))) ∨
    ∃ e, m.resolve? t = some (.name (.enumeration e)) ∧ ∃ v ∈ e.values, v.literal = s

namespace Model

variable {m : Model} {a : Argument} {c : Conversion} {i : Nat} {s value : String}

theorem declaration?_eq (m : Model) (a : Argument) (c : Conversion) (i : Nat) :
    m.declaration? a c i =
      some (c.native ++ " native_arg_" ++ toString i ++ (m.initializer a).text ++ ";") := by
  have hlines : m.declaration? a c i = some
      (c.native ++ " " ++ ("native_arg_" ++ toString i) ++ (m.initializer a).text ++ ";") := rfl
  have hspace : " native_arg_" = " " ++ "native_arg_" := rfl
  rw [hlines, hspace]
  simp only [String.append_assoc]

theorem declaration?_eq_iff : m.declaration? a c i = some (valueDeclaration c i value) ↔
    (m.initializer a).text = " = " ++ value := by
  rw [declaration?_eq, valueDeclaration, Option.some.injEq, ← String.toList_inj,
    ← String.toList_inj]
  simp only [String.toList_append, List.append_assoc, List.append_cancel_left_eq]
  rw [← List.append_assoc, List.append_cancel_right_eq]

/-- The quotes of a default are taken off before its text is looked at. -/
theorem initializer_of_quoted (ha : a.default = some (quoted s)) :
    m.initializer a = m.quotedInitializer a.type (trimQuotes s) := by
  have hhead : (quoted s).toList.head? = some '"' := by rw [toList_quoted]; rfl
  simp only [initializer, ha]
  rw [defaultInitializer_of_quoted hhead, trimQuotes_quoted]

/-! ## Enumerators -/

theorem mem_enums_of_resolve? {t : IdlType} {e : Enumeration}
    (h : m.resolve? t = some (.name (.enumeration e))) : e ∈ m.enums := by
  obtain ⟨n, rfl, hkind⟩ := nameKind?_of_resolve? h
  exact (kindOf_of_nameKind? hkind).2.1

/-- In the model of a document the literals of an enumeration and its enumerators tell each
other. -/
theorem ident_eq_iff {ds : List Definition} (hm : Model.ofDefinitions ds = .ok m) {e : Enumeration}
    (he : e ∈ m.enums) {v w : EnumValue} (hv : v ∈ e.values) (hw : w ∈ e.values) :
    v.ident = w.ident ↔ v.literal = w.literal := by
  obtain ⟨bodies, hmodel⟩ := ofDefinitions_eq_ok_iff.mp hm
  obtain ⟨d, _, hd⟩ := exists_right_of_forall₂ hmodel.enums.flip he
  obtain ⟨values, hok, rfl⟩ : ∃ values, enumValues d.name d.values = .ok values ∧
      Enumeration.mk d.name values = e := by
    simpa only [EnumDef.toEnumeration, bind_eq_ok_iff, pure_eq_ok_iff] using hd
  rcases enumValues_cases d.name d.values with ⟨hcases, hfree⟩ | ⟨_, _, _, herror⟩
  · obtain rfl := Except.ok.inj (hok.symm.trans hcases)
    obtain ⟨l, hl, rfl⟩ := List.mem_map.mp hv
    obtain ⟨l', hl', rfl⟩ := List.mem_map.mp hw
    constructor
    · intro hident
      by_contra hne
      exact hfree l l' ⟨List.mem_eraseDups.mp hl, List.mem_eraseDups.mp hl', hne, hident⟩
    · intro hliteral
      exact congrArg enumIdentifier hliteral
  · cases hok.symm.trans herror

end Model

/-! ## Texts that arrive -/

namespace Model.StartsWith

variable {ds : List Definition} {m : Model} {a : Argument} {c : Conversion} {i : Nat} {s : String}

/-- A text without quotes at its ends arrives. -/
theorem of_trimQuotes_eq (hm : Model.ofDefinitions ds = .ok m) (ha : a.default = some (quoted s))
    (hs : trimQuotes s = s) : m.StartsWith a c i s where
  scalar := by
    intro hscalar
    obtain ⟨kind, hkind⟩ := hscalar
    rw [declaration?_eq_iff, initializer_of_quoted ha, hs, quotedInitializer, hkind]
    rfl
  enumerator := by
    intro e he v hv hliteral
    rw [declaration?_eq_iff, initializer_of_quoted ha, hs, quotedInitializer, he]
    simp only
    cases hfind : e.values.find? fun v => v.literal == s with
    | none =>
        have hne := List.find?_eq_none.mp hfind v hv
        simp [hliteral] at hne
    | some w =>
        have hw : w.literal = v.literal := by simpa [hliteral] using List.find?_some hfind
        have hident := (ident_eq_iff hm (mem_enums_of_resolve? he)
          (List.mem_of_find?_eq_some hfind) hv).mpr hw
        simp [Initializer.text, hident, String.append_assoc]

/-- Only a text without quotes at its ends arrives. -/
theorem trimQuotes_eq (hm : Model.ofDefinitions ds = .ok m) (ha : a.default = some (quoted s))
    (htype : m.TakesText a.type s) (h : m.StartsWith a c i s) : trimQuotes s = s := by
  rcases htype with ⟨kind, hkind⟩ | ⟨e, he, v, hv, hliteral⟩
  · have htext := declaration?_eq_iff.mp (h.scalar ⟨kind, hkind⟩)
    rw [initializer_of_quoted ha, quotedInitializer, hkind] at htext
    exact cString_injective (by simpa [Initializer.text] using htext)
  · have htext := declaration?_eq_iff.mp (h.enumerator e he v hv hliteral)
    rw [initializer_of_quoted ha, quotedInitializer, he] at htext
    simp only at htext
    cases hfind : e.values.find? fun v => v.literal == trimQuotes s with
    | none => simp [hfind, Initializer.text, ← String.toList_inj] at htext
    | some w =>
        have hw : w.literal = trimQuotes s := by simpa using List.find?_some hfind
        have hident : w.ident = v.ident := by
          simpa [hfind, Initializer.text, ← String.toList_inj] using htext
        rw [← hw, ← hliteral]
        exact (ident_eq_iff hm (mem_enums_of_resolve? he)
          (List.mem_of_find?_eq_some hfind) hv).mp hident

end Model.StartsWith

/-- **Which texts arrive.** In the code for a document, an argument that is written with a text as
its default starts with that text. An argument of a tree does so exactly if the text neither starts
nor ends with a quote. -/
theorem text_default_kept_iff {ds : List Definition} {m : Model}
    (hm : Model.ofDefinitions ds = .ok m) (c : Conversion) (i : Nat) (s : String) :
    (∀ a : Argument, a.IsWrittenWith s → m.StartsWith a c i s) ∧
      ∀ node : ArgumentNode, node.HasText s → m.TakesText node.type.toType s →
        (m.StartsWith node.toArgument c i s ↔
          s.toList.head? ≠ some '"' ∧ s.toList.getLast? ≠ some '"') := by
  constructor
  · intro a ha
    exact .of_trimQuotes_eq hm ha.default_eq ha.trimQuotes_eq
  · intro node hnode htype
    rw [← trimQuotes_eq_self_iff]
    constructor
    · intro hstarts
      exact hstarts.trimQuotes_eq hm hnode.default_eq htype
    · intro hs
      exact .of_trimQuotes_eq hm hnode.default_eq hs

/-! ## Texts that do not arrive -/

/-- Marks, of which one has quotes at its ends. -/
def markDefinitions : List Definition := [.enumeration ⟨"Mark", ["a", "\"a\""]⟩]

def markModel : Model := ⟨[], [], [⟨"Mark", [⟨"a", "A"⟩, ⟨"\"a\"", "_a_"⟩]⟩], []⟩

/-- An argument of a tree with a text as its default. -/
def textNode (type text : String) : ArgumentNode :=
  ⟨"x", ⟨"", false, false, .name type⟩, true, false, some ⟨"string", .string text, none⟩⟩

/-- A text with quotes inside arrives from a tree, and a literal of a text arrives as its
enumerator. -/
theorem text_default_kept_marks :
    Model.ofDefinitions markDefinitions = .ok markModel ∧
      Argument.IsWrittenWith ⟨"x", .named "Mark", true, false, some "\"a\""⟩ "a" ∧
      markModel.declaration? ⟨"x", .named "Mark", true, false, some "\"a\""⟩
        ⟨"Mark", .specialization "Mark"⟩ 0 = some "Mark native_arg_0 = Mark::A;" ∧
      markModel.TakesText (.named "DOMString") "a\"b" ∧
      markModel.declaration? (textNode "DOMString" "a\"b").toArgument
        ⟨"DOMString", .specialization "DOMString"⟩ 1 =
          some "DOMString native_arg_1 = \"a\\\"b\";" := by
  have hm : Model.ofDefinitions markDefinitions = .ok markModel := rfl
  have hwritten : Argument.IsWrittenWith ⟨"x", .named "Mark", true, false, some "\"a\""⟩ "a" := by
    refine ⟨"optional Mark x = \"a\"", .inLine [(.ident "optional", 0), (.ident "Mark", 9),
      (.ident "x", 14), (.punct .equals, 16), (.text "a", 18)] 21, _, .inLine [] 21,
      [.ident "optional", .ident "Mark", .ident "x"], rfl, .refl _, rfl, rfl⟩
  have htakes : markModel.TakesText (.named "DOMString") "a\"b" := .inl ⟨_, rfl⟩
  have hmark := (text_default_kept_iff hm ⟨"Mark", .specialization "Mark"⟩ 0 "a").1 _ hwritten
  have hnode := (text_default_kept_iff hm ⟨"DOMString", .specialization "DOMString"⟩ 1 "a\"b").2
    (textNode "DOMString" "a\"b") ⟨none, rfl⟩ htakes
  refine ⟨hm, hwritten, ?_, htakes, ?_⟩
  · exact hmark.enumerator _ rfl ⟨"a", "A"⟩ List.mem_cons_self rfl
  · exact (hnode.mpr (by decide)).scalar ⟨_, rfl⟩

/-- Quotes at the ends of a text are lost. For an enumeration this leads to another enumerator. -/
theorem quotes_lost_at_ends :
    Model.ofDefinitions markDefinitions = .ok markModel ∧
      (textNode "DOMString" "\"a\"").HasText "\"a\"" ∧
      markModel.declaration? (textNode "DOMString" "\"a\"").toArgument
        ⟨"DOMString", .specialization "DOMString"⟩ 0 = some "DOMString native_arg_0 = \"a\";" ∧
      ¬markModel.StartsWith (textNode "DOMString" "\"a\"").toArgument
        ⟨"DOMString", .specialization "DOMString"⟩ 0 "\"a\"" ∧
      (textNode "Mark" "\"a\"").HasText "\"a\"" ∧
      markModel.declaration? (textNode "Mark" "\"a\"").toArgument
        ⟨"Mark", .specialization "Mark"⟩ 0 = some "Mark native_arg_0 = Mark::A;" ∧
      ¬markModel.StartsWith (textNode "Mark" "\"a\"").toArgument
        ⟨"Mark", .specialization "Mark"⟩ 0 "\"a\"" := by
  refine ⟨rfl, ⟨none, rfl⟩, rfl, ?_, ⟨none, rfl⟩, rfl, ?_⟩
  · intro h
    have hkept := h.scalar ⟨_, rfl⟩
    revert hkept
    decide
  · intro h
    have hkept := h.enumerator _ rfl ⟨"\"a\"", "_a_"⟩ (by simp) rfl
    revert hkept
    decide

end IdlBindings
