import IdlBindings.Compile
import IdlBindings.Proofs.Model.Accepted
import Mathlib.Data.List.Perm.Basic

/-!
# The order of definitions

Definitions fall into nine classes, and only the order within a class counts. Two documents with the
same definitions in each class have the same model or none, however the classes are mixed, although
a document without a model may be told so for another reason: names and enumerations are checked in
the order of the document. Includes statements are not checked there, so moving one does not even
change the reason.

## Main definitions

* `DefinitionClass`, `Definition.toClass`: the nine classes
* `SameClasses`: documents that differ only in how their classes are mixed
* `SameAroundIncludes`: documents that differ only in where their includes statements stand
-/
namespace IdlBindings

/-- The classes of definitions. -/
inductive DefinitionClass where
  | interface | mixin | dictionary | enumeration | typedef
  | partialInterface | partialMixin | partialDictionary | includes
deriving DecidableEq, Repr

def Definition.toClass : Definition → DefinitionClass
  | interface d => if d.isPartial then .partialInterface else .interface
  | mixin d => if d.isPartial then .partialMixin else .mixin
  | dictionary d => if d.isPartial then .partialDictionary else .dictionary
  | enumeration _ => .enumeration
  | typedef _ => .typedef
  | includes _ => .includes

/-- Each class has the same definitions in the same order. -/
def SameClasses (ds ds' : List Definition) : Prop :=
  ∀ k, ds.filter (fun d => d.toClass = k) = ds'.filter fun d => d.toClass = k

/-- The includes statements are the same, and so are the definitions around them. -/
def SameAroundIncludes (ds ds' : List Definition) : Prop :=
  ds.filter (fun d => d.toClass = .includes) = ds'.filter (fun d => d.toClass = .includes) ∧
    ds.filter (fun d => d.toClass ≠ .includes) = ds'.filter fun d => d.toClass ≠ .includes

variable {ds ds' : List Definition}

/-! ## One class at a time -/

namespace SameClasses

theorem symm (h : SameClasses ds ds') : SameClasses ds' ds := fun k => (h k).symm

theorem perm (h : SameClasses ds ds') : ds.Perm ds' := by
  rw [List.perm_iff_count]
  intro d
  have hclass : ∀ es : List Definition,
      es.count d = (es.filter fun e => e.toClass = d.toClass).count d := by
    intro es
    rw [List.count_filter (by simp)]
  rw [hclass ds, hclass ds', h d.toClass]

/-- What is read off one class is the same in both documents. -/
theorem filterMap_eq {α : Type} (h : SameClasses ds ds') {f : Definition → Option α}
    {k : DefinitionClass} (hf : ∀ d a, f d = some a → d.toClass = k) :
    ds.filterMap f = ds'.filterMap f := by
  have hclass : ∀ es : List Definition,
      es.filterMap f = (es.filter fun d => d.toClass = k).filterMap f := by
    intro es
    rw [List.filterMap_filter]
    refine List.filterMap_congr fun d _ => ?_
    cases hd : f d with
    | none => simp
    | some a => simp [hf d a hd]
  rw [hclass ds, hclass ds', h k]

theorem interfaceBody?_eq (h : SameClasses ds ds') (part : Bool) :
    ds.filterMap (Definition.interfaceBody? part) =
      ds'.filterMap (Definition.interfaceBody? part) := by
  refine h.filterMap_eq (k := if part then .partialInterface else .interface) fun d b hd => ?_
  cases d with
  | interface d =>
      obtain ⟨rfl, _⟩ : d.isPartial = part ∧ _ := by
        simpa [Definition.interfaceBody?] using hd
      rfl
  | _ => simp [Definition.interfaceBody?] at hd

theorem mixinBody?_eq (h : SameClasses ds ds') (part : Bool) :
    ds.filterMap (Definition.mixinBody? part) = ds'.filterMap (Definition.mixinBody? part) := by
  refine h.filterMap_eq (k := if part then .partialMixin else .mixin) fun d b hd => ?_
  cases d with
  | mixin d =>
      obtain ⟨rfl, _⟩ : d.isPartial = part ∧ _ := by
        simpa [Definition.mixinBody?] using hd
      rfl
  | _ => simp [Definition.mixinBody?] at hd

theorem dictionaryBody?_eq (h : SameClasses ds ds') (part : Bool) :
    ds.filterMap (Definition.dictionaryBody? part) =
      ds'.filterMap (Definition.dictionaryBody? part) := by
  refine h.filterMap_eq (k := if part then .partialDictionary else .dictionary) fun d b hd => ?_
  cases d with
  | dictionary d =>
      obtain ⟨rfl, _⟩ : d.isPartial = part ∧ _ := by
        simpa [Definition.dictionaryBody?] using hd
      rfl
  | _ => simp [Definition.dictionaryBody?] at hd

theorem enum?_eq (h : SameClasses ds ds') :
    ds.filterMap Definition.enum? = ds'.filterMap Definition.enum? := by
  refine h.filterMap_eq (k := .enumeration) fun d e hd => ?_
  cases d <;> simp_all [Definition.enum?, Definition.toClass]

theorem typedef?_eq (h : SameClasses ds ds') :
    ds.filterMap Definition.typedef? = ds'.filterMap Definition.typedef? := by
  refine h.filterMap_eq (k := .typedef) fun d t hd => ?_
  cases d <;> simp_all [Definition.typedef?, Definition.toClass]

theorem includes?_eq (h : SameClasses ds ds') :
    ds.filterMap Definition.includes? = ds'.filterMap Definition.includes? := by
  refine h.filterMap_eq (k := .includes) fun d i hd => ?_
  cases d <;> simp_all [Definition.includes?, Definition.toClass]

/-- The check passes on both documents or on neither. -/
theorem check_iff (h : SameClasses ds ds') :
    Definition.check [] ds = .ok () ↔ Definition.check [] ds' = .ok () := by
  rw [Definition.check_eq_ok_iff, Definition.check_eq_ok_iff, h.enum?_eq,
    (h.perm.filterMap _).nodup_iff]
  simp

/-- After the check nothing depends on how the classes are mixed. -/
theorem ofDefinitions_eq (h : SameClasses ds ds')
    (hcheck : Definition.check [] ds = Definition.check [] ds') :
    Model.ofDefinitions ds = Model.ofDefinitions ds' := by
  simp only [Model.ofDefinitions, mergedInterfaces, mergedDictionaries, hcheck, h.enum?_eq,
    h.typedef?_eq, h.includes?_eq, h.interfaceBody?_eq, h.mixinBody?_eq, h.dictionaryBody?_eq]

theorem ofDefinitions_eq_ok_iff (h : SameClasses ds ds') (m : Model) :
    Model.ofDefinitions ds = .ok m ↔ Model.ofDefinitions ds' = .ok m := by
  by_cases hcheck : Definition.check [] ds = .ok ()
  · rw [h.ofDefinitions_eq (hcheck.trans (h.check_iff.mp hcheck).symm)]
  · have hcheck' := mt h.check_iff.mpr hcheck
    have hnone : ∀ {es : List Definition}, ¬Definition.check [] es = .ok () →
        ¬Model.ofDefinitions es = .ok m := by
      intro es hes hm
      obtain ⟨_, hmodel⟩ := IdlBindings.ofDefinitions_eq_ok_iff.mp hm
      exact hes hmodel.checked
    exact iff_of_false (hnone hcheck) (hnone hcheck')

end SameClasses

/-! ## Moving includes statements -/

theorem Definition.check_filter_includes (names : List String) (ds : List Definition) :
    check names (ds.filter fun d => d.toClass ≠ .includes) = check names ds := by
  induction ds generalizing names with
  | nil => rfl
  | cons d ds ih =>
      by_cases hd : d.toClass = .includes
      · have hnone : d.declared? = none := by
          cases d <;> simp_all [toClass, declared?] <;> split at hd <;> cases hd
        rw [List.filter_cons_of_neg (by simpa using hd), ih, check_cons_of_none hnone]
      · rw [List.filter_cons_of_pos (by simpa using hd), check, check]
        simp only [ih]

namespace SameAroundIncludes

theorem sameClasses (h : SameAroundIncludes ds ds') : SameClasses ds ds' := by
  intro k
  by_cases hk : k = .includes
  · rw [hk]
    exact h.1
  · have hclass : ∀ es : List Definition, es.filter (fun d => d.toClass = k) =
        (es.filter fun d => d.toClass ≠ .includes).filter fun d => d.toClass = k := by
      intro es
      rw [List.filter_filter]
      refine List.filter_congr fun d _ => ?_
      by_cases hd : d.toClass = k
      · simp [hd, hk]
      · simp [hd]
    rw [hclass ds, hclass ds', h.2]

theorem ofDefinitions_eq (h : SameAroundIncludes ds ds') :
    Model.ofDefinitions ds = Model.ofDefinitions ds' := by
  apply h.sameClasses.ofDefinitions_eq
  rw [← Definition.check_filter_includes [] ds, h.2, Definition.check_filter_includes]

end SameAroundIncludes

/-! ## Generated code -/

section Generation

variable {c : Config} {text text' : String} {g : Generation}

/-- What is generated depends on the text of the document only through the model. -/
theorem generate_congr (h : Model.ofSource c.effectiveFormat text c.input =
    Model.ofSource c.effectiveFormat text' c.input) : c.generate text = c.generate text' := by
  rw [Config.generate, Config.generate, h]

theorem exists_model_of_generate (h : c.generate text = .ok g) :
    ∃ m, Model.ofSource c.effectiveFormat text c.input = .ok m := by
  rw [Config.generate, bind_eq_ok_iff] at h
  obtain ⟨m, hm, _⟩ := h
  exact ⟨m, hm⟩

theorem ofSource_of_parse (h : c.effectiveFormat.parse text c.input = .ok ds) :
    Model.ofSource c.effectiveFormat text c.input =
      (Model.ofDefinitions ds).mapError .inconsistent := by
  rw [Model.ofSource, h]
  rfl

/-- A document with the same classes generates whatever the first one does. -/
theorem SameClasses.generate (h : SameClasses ds ds')
    (hds : c.effectiveFormat.parse text c.input = .ok ds)
    (hds' : c.effectiveFormat.parse text' c.input = .ok ds') (hg : c.generate text = .ok g) :
    c.generate text' = .ok g := by
  obtain ⟨m, hm⟩ := exists_model_of_generate hg
  rw [ofSource_of_parse hds] at hm
  cases hmodel : Model.ofDefinitions ds with
  | error fault => simp [hmodel, Except.mapError] at hm
  | ok model =>
      have hmodel' := (h.ofDefinitions_eq_ok_iff model).mp hmodel
      rw [← hg]
      apply generate_congr
      rw [ofSource_of_parse hds, ofSource_of_parse hds', hmodel, hmodel']

end Generation

/-- **Only the order within a class counts.** Documents with the same classes have the same model
and the same generated code, or neither has any. Where only includes statements are moved, even a
failure is the same. -/
theorem interleaving_irrelevant (ds ds' : List Definition) :
    (SameClasses ds ds' →
      (∀ m, Model.ofDefinitions ds = .ok m ↔ Model.ofDefinitions ds' = .ok m) ∧
        ∀ (c : Config) (text text' : String), c.effectiveFormat.parse text c.input = .ok ds →
          c.effectiveFormat.parse text' c.input = .ok ds' →
            ∀ g, c.generate text = .ok g ↔ c.generate text' = .ok g) ∧
      (SameAroundIncludes ds ds' →
        Model.ofDefinitions ds = Model.ofDefinitions ds' ∧
          ∀ (c : Config) (text text' : String), c.effectiveFormat.parse text c.input = .ok ds →
            c.effectiveFormat.parse text' c.input = .ok ds' →
              c.generate text = c.generate text') := by
  refine ⟨fun h => ⟨h.ofDefinitions_eq_ok_iff, ?_⟩, fun h => ⟨h.ofDefinitions_eq, ?_⟩⟩
  · intro c text text' hds hds' g
    exact ⟨h.generate hds hds', h.symm.generate hds' hds⟩
  · intro c text text' hds hds'
    apply generate_congr
    rw [ofSource_of_parse hds, ofSource_of_parse hds', h.ofDefinitions_eq]

/-- An includes statement before everything that it is about. -/
def includesFirst : List Definition :=
  [.includes ⟨"A", "M"⟩,
    .interface ⟨"A", true, none, [.operation ⟨"g", [], none, false, []⟩], []⟩,
    .enumeration ⟨"E", ["x", "y"]⟩,
    .interface ⟨"A", false, none, [.operation ⟨"f", [], none, false, []⟩], []⟩,
    .mixin ⟨"M", false, [.operation ⟨"h", [], none, false, []⟩]⟩]

/-- The same definitions with every class elsewhere. -/
def includesLast : List Definition :=
  [.mixin ⟨"M", false, [.operation ⟨"h", [], none, false, []⟩]⟩,
    .interface ⟨"A", false, none, [.operation ⟨"f", [], none, false, []⟩], []⟩,
    .enumeration ⟨"E", ["x", "y"]⟩,
    .interface ⟨"A", true, none, [.operation ⟨"g", [], none, false, []⟩], []⟩,
    .includes ⟨"A", "M"⟩]

theorem interleaving_irrelevant_includes :
    SameClasses includesFirst includesLast ∧
      ∃ m, Model.ofDefinitions includesFirst = .ok m ∧
        Model.ofDefinitions includesLast = .ok m := by
  have hclasses : SameClasses includesFirst includesLast := by
    intro k
    cases k <;> decide
  obtain ⟨m, hm⟩ : ∃ m, Model.ofDefinitions includesFirst = .ok m := ⟨_, rfl⟩
  exact ⟨hclasses, m, hm, (((interleaving_irrelevant _ _).1 hclasses).1 m).mp hm⟩

end IdlBindings
