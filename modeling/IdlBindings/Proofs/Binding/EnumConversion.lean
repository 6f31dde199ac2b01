import IdlBindings.Proofs.Binding.TestLines
import IdlBindings.Proofs.Model.Enumerators
import IdlBindings.Proofs.Model.Overloads
import IdlBindings.Proofs.Text.LiteralValue
import Mathlib.Data.List.TakeWhile

/-!
# Converting values of an enumeration

The converter of an enumeration compares a host text with the literals in their order and assigns
the enumerator of the first that is equal, or compares a native value with the enumerators and
passes the literal of the first that is equal to the host. Its code is run here as it is written,
with each literal read as a compiler reads it. Enumerators never collide, so the two directions undo
each other and refuse everything else exactly if each literal of the document is what the code
compares with: a hexadecimal digit behind a control character and a zero character get in the
way.

## Main definitions

* `cText?`: what comparisons see of a literal
* `Enumeration.toNative`, `Enumeration.toJs`: what the code of a converter does with a value
* `Enumeration.IsInverse`: both directions undo each other and refuse everything else
-/
namespace IdlBindings

/-! ## Literals in comparisons -/

/-- What a comparison and the host see of a literal: its bytes up to the first zero. -/
def cText? (literal : String) : Option (List UInt8) :=
  (literalBytes? literal).map fun bytes => bytes.takeWhile (· ≠ 0)

/-- A text that code can compare with: its literal stands for it, and it has no zero character. -/
def IsComparable (t : String) : Prop := IsReadBack t ∧ '\x00' ∉ t.toList

instance (t : String) : Decidable (IsComparable t) :=
  inferInstanceAs (Decidable (IsReadBack t ∧ '\x00' ∉ t.toList))

/-- No character but the zero character has a zero byte. -/
theorem zero_mem_utf8EncodeChar_iff {c : Char} :
    0 ∈ String.utf8EncodeChar c ↔ c = '\x00' := by
  have hzero : ∀ n, 0 = UInt8.ofNat n ↔ n % 256 = 0 := by
    intro n
    rw [← UInt8.toNat_inj, UInt8.toNat_ofNat']
    exact eq_comm
  have hc : c = '\x00' ↔ c.val.toNat = 0 := by
    rw [← Char.toNat_inj]
    rfl
  rw [hc, String.utf8EncodeChar]
  split_ifs <;> simp only [List.mem_cons, List.not_mem_nil, or_false, hzero] <;> omega

theorem zero_mem_utf8Bytes_iff {t : String} : 0 ∈ utf8Bytes t ↔ '\x00' ∈ t.toList := by
  simp only [utf8Bytes, List.mem_flatMap, zero_mem_utf8EncodeChar_iff, exists_eq_right]

theorem takeWhile_ne_zero_eq_self_iff {bytes : List UInt8} :
    bytes.takeWhile (· ≠ 0) = bytes ↔ 0 ∉ bytes := by
  rw [List.takeWhile_eq_self_iff]
  constructor
  · intro h hzero
    simpa using h 0 hzero
  · intro hzero b hb
    rw [decide_eq_true_iff]
    rintro rfl
    exact hzero hb

/-- A comparison sees the text of the document exactly if code can compare with it. -/
theorem cText?_cString_iff {t : String} :
    cText? (cString t) = some (utf8Bytes t) ↔ IsComparable t := by
  rw [cText?, literalBytes?_cString, Option.map_eq_some_iff]
  constructor
  · rintro ⟨bytes, hbytes, htake⟩
    -- The literal has no more bytes than the text, so none is cut off.
    have hle : bytes.length ≤ (utf8Bytes t).length := length_le_of_quotedBytes? hbytes
    have hfront := List.takeWhile_prefix (l := bytes) (· ≠ 0)
    rw [htake] at hfront
    obtain rfl := hfront.eq_of_length (Nat.le_antisymm hfront.length_le hle)
    refine ⟨quotedBytes?_eq_iff.mp hbytes, ?_⟩
    rw [← zero_mem_utf8Bytes_iff]
    exact takeWhile_ne_zero_eq_self_iff.mp htake
  · rintro ⟨hread, hzero⟩
    refine ⟨utf8Bytes t, quotedBytes?_eq_iff.mpr hread, ?_⟩
    rw [← zero_mem_utf8Bytes_iff] at hzero
    exact takeWhile_ne_zero_eq_self_iff.mpr hzero

/-! ## The code of a converter -/

namespace Enumeration

variable (e : Enumeration)

/-- A value as it is written in code. -/
def enumerator (v : EnumValue) : String := e.name ++ "::" ++ v.ident

/-- What comes out of the function to native values for a host text. -/
def toNative (text : String) : Ending :=
  ending "*result = " (executed
    (fun condition => (between? "str_val == " "" condition).bind cText? = some (utf8Bytes text))
    .outside (e.converterPair.rule.toNativeLines e.name))

/-- What comes out of the function to host values for a native value. -/
def toJs (value : String) : Ending :=
  ending "literal = " (executed (fun condition => condition = "val == " ++ value) .outside
    (e.converterPair.rule.toJsLines e.name))

/-- What is returned for a host text that is refused. -/
def refusal : String :=
  "WebIdlNapi::ThrowInvalidEnumValue(env, " ++ cString e.name ++ ", str_val)"

/-- What is returned for a native value: a host text with the literal that is assigned. -/
def hostText : String := "napi_create_string_utf8(env, literal, NAPI_AUTO_LENGTH, result)"

/-- The tests of the function to native values. -/
def nativeTests : List (String × String) :=
  e.values.map fun v => ("str_val == " ++ cString v.literal, "*result = " ++ e.enumerator v ++ ";")

/-- The tests of the function to host values. -/
def jsTests : List (String × String) :=
  e.values.map fun v => ("val == " ++ e.enumerator v, "literal = " ++ cString v.literal ++ ";")

/-- The statements before the tests of the function to native values. -/
def readTextLines : List String :=
  ["DOMString str_val;",
    "napi_status status = WebIdlNapi::Converter<DOMString>::ToNative(env, val, &str_val);",
    returnFailure,
    ""]

theorem toNativeLines_eq : e.converterPair.rule.toNativeLines e.name =
    readTextLines ++ testLines e.nativeTests ("return " ++ e.refusal ++ ";") ++
      (if e.values.isEmpty then [] else ["return " ++ "napi_ok" ++ ";"]) := by
  have hrefusal : "return WebIdlNapi::ThrowInvalidEnumValue(env, " ++ cString e.name ++
      ", str_val);" = "return " ++ e.refusal ++ ";" := by
    have hjoin : ∀ a b c : String, ("return " ++ a) ++ b ++ (c ++ ";") =
        "return " ++ (a ++ b ++ c) ++ ";" := by
      intro a b c
      simp only [String.append_assoc]
    exact hjoin "WebIdlNapi::ThrowInvalidEnumValue(env, " (cString e.name) ", str_val)"
  have htests : e.nativeTests = e.values.map fun v =>
      ("str_val == " ++ cString v.literal, "*result = " ++ e.name ++ "::" ++ v.ident ++ ";") := by
    simp only [nativeTests, enumerator, String.append_assoc]
  rw [htests, ← hrefusal]
  rfl

theorem toJsLines_eq : e.converterPair.rule.toJsLines e.name =
    ["const char* literal = nullptr;"] ++
      testLines e.jsTests ("return " ++ "napi_invalid_arg" ++ ";") ++
      (if e.values.isEmpty then [] else ["return " ++ hostText ++ ";"]) := by
  have htests : e.jsTests = e.values.map fun v =>
      ("val == " ++ e.name ++ "::" ++ v.ident, "literal = " ++ cString v.literal ++ ";") := by
    simp only [jsTests, enumerator, String.append_assoc]
  rw [htests]
  rfl

theorem isAside_readTextLines : ∀ line ∈ readTextLines, IsAside "*result = " line := by
  intro line hline
  simp only [readTextLines, List.mem_cons, List.not_mem_nil, or_false] at hline
  rcases hline with rfl | rfl | rfl | rfl
  · exact isAside_of_head? (c := 'D') rfl rfl (by decide)
  · exact isAside_of_head? (c := 'n') rfl rfl (by decide)
  · exact ⟨by decide, by decide, by decide⟩
  · exact ⟨by decide, by decide, by decide⟩

/-- Code that tests for the values in order comes to the assignment for the first test that holds,
or returns what is meant for when none does. -/
theorem ending_tests {holds : String → Bool} {before : List String} {c : Char}
    {assignment otherwise last : String} {test : EnumValue → String × String}
    {value : EnumValue → String} (hbefore : ∀ line ∈ before, IsAside assignment line)
    (hassignment : assignment.toList.head? = some c) (hc : c ≠ 'r')
    (htest : ∀ v, (test v).2 = assignment ++ value v ++ ";") :
    ending assignment (executed holds .outside
        (before ++ testLines (e.values.map test) ("return " ++ otherwise ++ ";") ++
          (if e.values.isEmpty then [] else ["return " ++ last ++ ";"]))) =
      match e.values.find? fun v => holds (test v).1 with
      | some v => ⟨some (value v), some last⟩
      | none => ⟨none, some otherwise⟩ := by
  have hreturn : ∀ r, LineKind.ofLine ("return " ++ r ++ ";") = .statement := by
    intro r
    exact ofLine_of_head? (c := 'r') (by simp) (by decide) (by decide)
  rw [ending_executed holds _ hbefore (hreturn otherwise), chosen, List.find?_map]
  · cases hfind : e.values.find? fun v => holds (test v).1 with
    | none =>
        simp only [Function.comp_def, hfind, Option.map_none, Option.getD_none]
        exact ending_return otherwise _
    | some v =>
        have hvalues : e.values.isEmpty = false := by
          rw [List.isEmpty_eq_false_iff]
          exact List.ne_nil_of_mem (List.mem_of_find?_eq_some hfind)
        simp only [Function.comp_def, hfind, Option.map_some, Option.getD_some, htest, hvalues]
        exact ending_assignment hassignment hc _ _ _
  · intro line hline
    split at hline
    · simp at hline
    · rw [List.mem_singleton.mp hline]
      exact hreturn last

/-- A host text is converted to the enumerator of the first literal that it is equal to. -/
theorem toNative_eq (text : String) : e.toNative text =
    match e.values.find? fun v => cText? (cString v.literal) = some (utf8Bytes text) with
    | some v => ⟨some (e.enumerator v), some "napi_ok"⟩
    | none => ⟨none, some e.refusal⟩ := by
  have hcondition : ∀ literal, between? "str_val == " "" ("str_val == " ++ literal) =
      some literal := by
    intro literal
    simpa using between?_append "str_val == " "" literal
  rw [toNative, toNativeLines_eq, nativeTests, ending_tests e isAside_readTextLines
    (c := '*') (by decide) (by decide) fun v => rfl]
  simp only [hcondition, Option.bind_some]

theorem assigned_toNative (text : String) : (e.toNative text).assigned =
    (e.values.find? fun v => cText? (cString v.literal) = some (utf8Bytes text)).map
      e.enumerator := by
  rw [toNative_eq]
  cases e.values.find? fun v => cText? (cString v.literal) = some (utf8Bytes text) <;> rfl

/-- A native value is converted to the literal of its enumerator. -/
theorem toJs_eq (value : String) : e.toJs value =
    match e.values.find? fun v => e.enumerator v = value with
    | some v => ⟨some (cString v.literal), some hostText⟩
    | none => ⟨none, some "napi_invalid_arg"⟩ := by
  have hbefore : ∀ line ∈ ["const char* literal = nullptr;"], IsAside "literal = " line := by
    intro line hline
    rw [List.mem_singleton.mp hline]
    exact isAside_of_head? (c := 'c') rfl rfl (by decide)
  rw [toJs, toJsLines_eq, jsTests, ending_tests e hbefore (c := 'l') (by decide) (by decide)
    fun v => rfl]
  simp only [String.append_right_inj]

theorem assigned_toJs (value : String) : (e.toJs value).assigned =
    (e.values.find? fun v => e.enumerator v = value).map fun v => cString v.literal := by
  rw [toJs_eq]
  cases e.values.find? fun v => e.enumerator v = value <;> rfl

/-! ## Both directions -/

/-- The two directions undo each other on the values of an enumeration and refuse everything else
with an error. -/
structure IsInverse : Prop where
  toNative_literal : ∀ v ∈ e.values,
    e.toNative v.literal = ⟨some (e.enumerator v), some "napi_ok"⟩
  toJs_enumerator : ∀ v ∈ e.values, ∃ literal,
    e.toJs (e.enumerator v) = ⟨some literal, some hostText⟩ ∧
      cText? literal = some (utf8Bytes v.literal)
  toNative_other : ∀ text, text ∉ e.values.map EnumValue.literal →
    e.toNative text = ⟨none, some e.refusal⟩
  toJs_other : ∀ value, value ∉ e.values.map e.enumerator →
    e.toJs value = ⟨none, some "napi_invalid_arg"⟩

theorem find?_eq_some_of_unique {α : Type} {p : α → Bool} {xs : List α} {x : α} (hx : x ∈ xs)
    (hp : p x = true) (hunique : ∀ y ∈ xs, p y = true → y = x) : xs.find? p = some x := by
  obtain ⟨y, hy⟩ := Option.isSome_iff_exists.mp (List.find?_isSome.mpr ⟨x, hx, hp⟩)
  rw [hy, hunique y (List.mem_of_find?_eq_some hy) (List.find?_some hy)]

variable {e}

theorem enumerator_inj {v w : EnumValue} : e.enumerator v = e.enumerator w ↔ v.ident = w.ident := by
  rw [enumerator, enumerator, String.append_right_inj]

/-- A native value is compared with distinct enumerators, so it finds its own. -/
theorem toJs_enumerator (hidents : (e.values.map EnumValue.ident).Nodup) {v : EnumValue}
    (hv : v ∈ e.values) :
    e.toJs (e.enumerator v) = ⟨some (cString v.literal), some hostText⟩ := by
  have hfind : e.values.find? (fun w => e.enumerator w = e.enumerator v) = some v := by
    refine find?_eq_some_of_unique hv (decide_eq_true rfl) fun w hw heq => ?_
    exact List.inj_on_of_nodup_map hidents hw hv (enumerator_inj.mp (of_decide_eq_true heq))
  rw [toJs_eq, hfind]

/-- **A converter is inverse in both directions** exactly if code can compare with all literals. -/
theorem isInverse_iff (hliterals : (e.values.map EnumValue.literal).Nodup)
    (hidents : (e.values.map EnumValue.ident).Nodup) :
    e.IsInverse ↔ ∀ v ∈ e.values, IsComparable v.literal := by
  constructor
  · intro h v hv
    obtain ⟨literal, hending, htext⟩ := h.toJs_enumerator v hv
    rw [toJs_enumerator hidents hv, Ending.mk.injEq, Option.some.injEq] at hending
    rwa [← hending.1, cText?_cString_iff] at htext
  · intro h
    have htext : ∀ v ∈ e.values, cText? (cString v.literal) = some (utf8Bytes v.literal) :=
      fun v hv => cText?_cString_iff.mpr (h v hv)
    have hequal : ∀ v ∈ e.values, ∀ text,
        cText? (cString v.literal) = some (utf8Bytes text) → v.literal = text := by
      intro v hv text heq
      rw [htext v hv, Option.some.injEq] at heq
      exact utf8Bytes_injective heq
    refine ⟨fun v hv => ?_, fun v hv => ?_, fun text hother => ?_, fun value hother => ?_⟩
    · have hfind : e.values.find? (fun w => cText? (cString w.literal) =
          some (utf8Bytes v.literal)) = some v := by
        refine find?_eq_some_of_unique hv (decide_eq_true (htext v hv)) fun w hw heq => ?_
        exact List.inj_on_of_nodup_map hliterals hw hv (hequal w hw _ (of_decide_eq_true heq))
      rw [toNative_eq, hfind]
    · exact ⟨cString v.literal, toJs_enumerator hidents hv, htext v hv⟩
    · rw [toNative_eq, List.find?_eq_none.mpr]
      intro v hv heq
      apply hother
      rw [← hequal v hv text (of_decide_eq_true heq)]
      exact List.mem_map_of_mem hv
    · rw [toJs_eq, List.find?_eq_none.mpr]
      intro v hv heq
      apply hother
      rw [← of_decide_eq_true heq]
      exact List.mem_map_of_mem hv

end Enumeration

/-! ## Enumerations of a document -/

/-- **Literals and enumerators belong together.** An enumeration has values exactly if no two of its
literals have the same enumerator. The values are its literals without repetitions, with distinct
enumerators. The two directions of their converter undo each other and refuse everything else
exactly if code can compare with all literals. -/
theorem enum_conversion_exact (enum : String) (literals : List String) :
    ((∃ values, enumValues enum literals = .ok values) ↔
        ∀ first second, ¬Collision literals first second) ∧
      ∀ values, enumValues enum literals = .ok values →
        values.map EnumValue.literal = literals.eraseDups ∧
        (∀ v ∈ values, v.ident = enumIdentifier v.literal) ∧
        (values.map EnumValue.ident).Nodup ∧
        (Enumeration.IsInverse ⟨enum, values⟩ ↔ ∀ literal ∈ literals, IsComparable literal) := by
  rcases enumValues_cases enum literals with ⟨hok, hfree⟩ | ⟨first, second, hcollision, herror⟩
  · refine ⟨iff_of_true ⟨_, hok⟩ hfree, ?_⟩
    intro values hvalues
    obtain rfl : literals.eraseDups.map EnumValue.ofLiteral = values :=
      Except.ok.inj (hok.symm.trans hvalues)
    have hliterals : (literals.eraseDups.map EnumValue.ofLiteral).map EnumValue.literal =
        literals.eraseDups := by
      simp [Function.comp_def, EnumValue.ofLiteral]
    have hdistinct :
        ((literals.eraseDups.map EnumValue.ofLiteral).map EnumValue.literal).Nodup := by
      rw [hliterals]
      exact nodup_eraseDups literals
    have hidents : ((literals.eraseDups.map EnumValue.ofLiteral).map EnumValue.ident).Nodup := by
      rw [List.map_map]
      refine (nodup_eraseDups literals).map_on fun l hl l' hl' heq => ?_
      by_contra hne
      exact hfree l l' ⟨List.mem_eraseDups.mp hl, List.mem_eraseDups.mp hl', hne, heq⟩
    refine ⟨hliterals, ?_, hidents, ?_⟩
    · intro v hv
      obtain ⟨l, _, rfl⟩ := List.mem_map.mp hv
      rfl
    · rw [Enumeration.isInverse_iff hdistinct hidents]
      simp [EnumValue.ofLiteral]
  · refine ⟨iff_of_false ?_ fun hfree => hfree first second hcollision, ?_⟩
    · rintro ⟨values, hvalues⟩
      cases herror.symm.trans hvalues
    · intro values hvalues
      cases herror.symm.trans hvalues

/-- A repeated literal, an empty one, and two that are no identifiers. -/
theorem enum_conversion_exact_mode :
    ∃ values, enumValues "Mode" ["low-power", "", "low-power", "2d"] = .ok values ∧
      values.map EnumValue.literal = ["low-power", "", "2d"] ∧
      Enumeration.IsInverse ⟨"Mode", values⟩ := by
  refine ⟨_, rfl, ?_⟩
  obtain ⟨hliterals, _, _, hinverse⟩ :=
    (enum_conversion_exact "Mode" ["low-power", "", "low-power", "2d"]).2 _ rfl
  refine ⟨rfl, hinverse.mpr ?_⟩
  intro literal hliteral
  simp only [List.mem_cons, List.not_mem_nil, or_false] at hliteral
  rcases hliteral with rfl | rfl | rfl | rfl <;> decide

/-- Two literals with one text: the first has a digit behind a control character. -/
theorem digit_literal_refused :
    ∃ values, enumValues "Key" ["\x01a", "\x1a"] = .ok values ∧
      (Enumeration.toNative ⟨"Key", values⟩ "\x01a").assigned = none ∧
      (Enumeration.toNative ⟨"Key", values⟩ "\x1a").assigned = some "Key::_a" ∧
      (Enumeration.toJs ⟨"Key", values⟩ "Key::_a").assigned.bind cText? =
        some (utf8Bytes "\x1a") ∧
      ¬Enumeration.IsInverse ⟨"Key", values⟩ := by
  have hvalues : enumValues "Key" ["\x01a", "\x1a"] = .ok [⟨"\x01a", "_a"⟩, ⟨"\x1a", "_"⟩] := by
    decide
  have hrefused : (Enumeration.toNative ⟨"Key", [⟨"\x01a", "_a"⟩, ⟨"\x1a", "_"⟩]⟩
      "\x01a").assigned = none := by
    rw [Enumeration.assigned_toNative]
    cbv
  refine ⟨_, hvalues, hrefused, ?_, ?_, ?_⟩
  · rw [Enumeration.assigned_toNative]
    cbv
  · rw [Enumeration.assigned_toJs]
    cbv
  · intro h
    have hfirst := congrArg Ending.assigned
      (h.toNative_literal ⟨"\x01a", "_a"⟩ List.mem_cons_self)
    rw [hrefused] at hfirst
    cases hfirst

end IdlBindings
