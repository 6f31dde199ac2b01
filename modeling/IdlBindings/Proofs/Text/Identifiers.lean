import IdlBindings.Config

/-!
# Names that are identifiers

A name for generated code is made in up to three steps: the first letter becomes a capital, what an
identifier cannot hold becomes an underscore, and an underscore goes in front of a digit. No step
makes work for one before it, so the result is an identifier that the same steps leave alone. More
exactly, they leave alone the identifiers and nothing else; for enumerators, those that do not start
with a small letter.

## Main definitions

* `IsCIdentifier`: what is an identifier
-/
namespace IdlBindings

/-- The text is not empty, has letters, digits and underscores of ASCII only, and does not start
with a digit. -/
structure IsCIdentifier (name : String) : Prop where
  nonempty : name ≠ ""
  chars : ∀ c ∈ name.toList, c.isAlphanum = true ∨ c = '_'
  first : ∀ c, name.toList.head? = some c → c.isDigit = false

variable {name literal : String} {c : Char} {cs : List Char}

/-! ## Characters -/

theorem identChar_eq_self_iff : identChar c = c ↔ c.isAlphanum = true ∨ c = '_' := by
  rw [identChar]
  split
  · next hc => simp [hc]
  · next hc => simp [hc, eq_comm]

theorem isAlphanum_or_eq_of_identChar (c : Char) :
    (identChar c).isAlphanum = true ∨ identChar c = '_' := by
  rw [identChar]
  split
  · next hc => exact .inl hc
  · exact .inr rfl

theorem isLower_identChar (hc : c.isLower = false) : (identChar c).isLower = false := by
  rw [identChar]
  split
  · exact hc
  · rfl

/-! ## The first character -/

theorem isDigit_of_head?_guardDigit (hc : (guardDigit cs).head? = some c) : c.isDigit = false := by
  cases cs with
  | nil => cases hc
  | cons first cs =>
      rw [guardDigit] at hc
      split at hc
      · cases hc
        rfl
      · next hfirst =>
          cases hc
          exact Bool.eq_false_iff.mpr hfirst

theorem guardDigit_eq_self (hcs : ∀ c, cs.head? = some c → c.isDigit = false) :
    guardDigit cs = cs := by
  cases cs with
  | nil => rfl
  | cons first cs => rw [guardDigit, if_neg (Bool.eq_false_iff.mp (hcs first rfl))]

/-- The guard adds nothing but an underscore in front. -/
theorem guardDigit_eq_or (cs : List Char) : guardDigit cs = cs ∨ guardDigit cs = '_' :: cs := by
  cases cs with
  | nil => exact .inl rfl
  | cons first cs =>
      rw [guardDigit]
      split
      · exact .inr rfl
      · exact .inl rfl

/-! ## Names -/

/-- With the guard, characters of identifiers make up an identifier. -/
theorem isCIdentifier_guardDigit (hne : cs ≠ [])
    (hchars : ∀ c ∈ cs, c.isAlphanum = true ∨ c = '_') :
    IsCIdentifier (String.ofList (guardDigit cs)) where
  nonempty := by
    rw [ne_eq, String.ofList_eq_empty_iff]
    rcases guardDigit_eq_or cs with hguard | hguard <;> rw [hguard]
    · exact hne
    · exact List.cons_ne_nil _ _
  chars := by
    rw [String.toList_ofList]
    rcases guardDigit_eq_or cs with hguard | hguard <;> rw [hguard]
    · exact hchars
    · exact List.forall_mem_cons.mpr ⟨.inr rfl, hchars⟩
  first := by
    rw [String.toList_ofList]
    exact fun c => isDigit_of_head?_guardDigit

theorem cIdentifier_eq (hname : name ≠ "") :
    cIdentifier name = String.ofList (guardDigit (name.toList.map identChar)) := by
  rw [cIdentifier]
  split
  · next hnil => exact absurd (String.toList_eq_nil_iff.mp (List.map_eq_nil_iff.mp hnil)) hname
  · rfl

theorem isCIdentifier_cIdentifier (name : String) : IsCIdentifier (cIdentifier name) := by
  by_cases hname : name = ""
  · subst hname
    exact isCIdentifier_guardDigit (List.cons_ne_nil '_' []) (by simp)
  · rw [cIdentifier_eq hname]
    refine isCIdentifier_guardDigit (by simpa using hname) fun c hc => ?_
    obtain ⟨c, _, rfl⟩ := List.mem_map.mp hc
    exact isAlphanum_or_eq_of_identChar c

theorem cIdentifier_eq_self (h : IsCIdentifier name) : cIdentifier name = name := by
  have hchars : name.toList.map identChar = name.toList :=
    (List.map_congr_left fun c hc => identChar_eq_self_iff.mpr (h.chars c hc)).trans
      (List.map_id' _)
  rw [cIdentifier_eq h.nonempty, hchars, guardDigit_eq_self h.first, String.ofList_toList]

theorem cIdentifier_eq_self_iff : cIdentifier name = name ↔ IsCIdentifier name :=
  ⟨fun h => h ▸ isCIdentifier_cIdentifier name, cIdentifier_eq_self⟩

theorem IsCIdentifier.append {suffix : String} (h : IsCIdentifier name)
    (hsuffix : ∀ c ∈ suffix.toList, c.isAlphanum = true ∨ c = '_') :
    IsCIdentifier (name ++ suffix) where
  nonempty := by simp [h.nonempty]
  chars := by
    rw [String.toList_append, List.forall_mem_append]
    exact ⟨h.chars, hsuffix⟩
  first := by
    obtain ⟨first, rest, hname⟩ :=
      List.exists_cons_of_ne_nil (mt String.toList_eq_nil_iff.mp h.nonempty)
    have hfirst := h.first
    rw [hname] at hfirst
    rwa [String.toList_append, hname, List.cons_append]

/-! ## Enumerators -/

/-- But for the empty literal, an enumerator is the identifier for the literal with a capital. -/
theorem enumIdentifier_eq (hliteral : literal.toList = c :: cs) :
    enumIdentifier literal = cIdentifier (String.ofList (c.toUpper :: cs)) := by
  rw [cIdentifier_eq (by simp), enumIdentifier, hliteral, String.toList_ofList, List.map_cons]

theorem isCIdentifier_enumIdentifier (literal : String) :
    IsCIdentifier (enumIdentifier literal) := by
  cases hliteral : literal.toList with
  | nil =>
      obtain rfl : literal = "" := String.toList_eq_nil_iff.mp hliteral
      exact cIdentifier_eq_self_iff.mp rfl
  | cons c cs =>
      rw [enumIdentifier_eq hliteral]
      exact isCIdentifier_cIdentifier _

theorem isLower_of_head?_enumIdentifier (hc : (enumIdentifier literal).toList.head? = some c) :
    c.isLower = false := by
  cases hliteral : literal.toList with
  | nil =>
      obtain rfl : literal = "" := String.toList_eq_nil_iff.mp hliteral
      cases hc
      rfl
  | cons first cs =>
      rw [enumIdentifier_eq hliteral, cIdentifier_eq (by simp), String.toList_ofList,
        String.toList_ofList, List.map_cons] at hc
      have hupper : first.toUpper.isLower = false := by
        delta Char.isLower Char.toUpper
        split <;> grind [UInt32.toNat_add, Char.toNat_val]
      rcases guardDigit_eq_or (identChar first.toUpper :: cs.map identChar) with hguard | hguard <;>
        rw [hguard] at hc <;> cases hc
      · exact isLower_identChar hupper
      · rfl

theorem enumIdentifier_eq_self (h : IsCIdentifier literal)
    (hfirst : ∀ c, literal.toList.head? = some c → c.isLower = false) :
    enumIdentifier literal = literal := by
  obtain ⟨c, cs, hliteral⟩ :=
    List.exists_cons_of_ne_nil (mt String.toList_eq_nil_iff.mp h.nonempty)
  have hupper : c.toUpper = c := by
    refine dif_neg fun hletter => ?_
    have hlower : c.isLower = true :=
      Bool.and_eq_true_iff.mpr ⟨decide_eq_true hletter.1, decide_eq_true hletter.2⟩
    rw [hfirst c (by rw [hliteral]; rfl)] at hlower
    cases hlower
  rw [enumIdentifier_eq hliteral, hupper, ← hliteral, String.ofList_toList, cIdentifier_eq_self h]

theorem enumIdentifier_eq_self_iff :
    enumIdentifier literal = literal ↔
      IsCIdentifier literal ∧ ∀ c, literal.toList.head? = some c → c.isLower = false := by
  constructor
  · intro h
    rw [← h]
    exact ⟨isCIdentifier_enumIdentifier literal, fun _ => isLower_of_head?_enumIdentifier⟩
  · rintro ⟨h, hfirst⟩
    exact enumIdentifier_eq_self h hfirst

/-! ## Modules -/

namespace Config

theorem isCIdentifier_effectiveModuleName (config : Config) :
    IsCIdentifier config.effectiveModuleName :=
  isCIdentifier_cIdentifier _

/-- A given name is used as it is where it can be. -/
theorem effectiveModuleName_eq {config : Config} (hgiven : config.moduleName = some name)
    (hname : IsCIdentifier name) : config.effectiveModuleName = name := by
  rw [effectiveModuleName, hgiven, Option.getD_some, cIdentifier_eq_self hname]

theorem isCIdentifier_initName (config : Config) :
    IsCIdentifier (BindingUnit.initName config.unitOptions) :=
  config.isCIdentifier_effectiveModuleName.append (by simp)

end Config

/-- **Sanitized names are identifiers, and stay as they are when sanitized again.** For any text,
the name made from it is an identifier; making a name from that changes nothing, since a text stays
as it is exactly if it is an identifier already. The same holds of enumerators, except that a text
stays only if it does not start with a small letter. Whatever the path of the document and the given
name, the name of the module is an identifier, and so is the function that exports the classes; a
given name that is an identifier is used as it is. -/
theorem sanitized_names_are_identifiers :
    (∀ name, IsCIdentifier (cIdentifier name) ∧
        cIdentifier (cIdentifier name) = cIdentifier name ∧
        (cIdentifier name = name ↔ IsCIdentifier name)) ∧
      (∀ literal, IsCIdentifier (enumIdentifier literal) ∧
        enumIdentifier (enumIdentifier literal) = enumIdentifier literal ∧
        (enumIdentifier literal = literal ↔
          IsCIdentifier literal ∧ ∀ c, literal.toList.head? = some c → c.isLower = false)) ∧
      ∀ config : Config, IsCIdentifier config.effectiveModuleName ∧
        IsCIdentifier (BindingUnit.initName config.unitOptions) ∧
        ∀ name, config.moduleName = some name → IsCIdentifier name →
          config.effectiveModuleName = name := by
  refine ⟨fun name => ?_, fun literal => ?_, fun config => ?_⟩
  · have hname := isCIdentifier_cIdentifier name
    exact ⟨hname, cIdentifier_eq_self hname, cIdentifier_eq_self_iff⟩
  · have hliteral := isCIdentifier_enumIdentifier literal
    have hfirst : ∀ c, (enumIdentifier literal).toList.head? = some c → c.isLower = false :=
      fun _ => isLower_of_head?_enumIdentifier
    exact ⟨hliteral, enumIdentifier_eq_self hliteral hfirst, enumIdentifier_eq_self_iff⟩
  · exact ⟨config.isCIdentifier_effectiveModuleName, config.isCIdentifier_initName,
      fun _ => config.effectiveModuleName_eq⟩

/-- An umlaut and a hyphen become underscores, and a digit in front is guarded. -/
example : cIdentifier "2-türig" = "_2_t_rig" ∧ enumIdentifier "türig" = "T_rig" := by decide

end IdlBindings
