import IdlBindings.Model.Merge
import Mathlib.Data.List.Forall2

/-!
# Documents that have a model

A document is accepted if every step of putting it together succeeds. `ModelOf` names what each step
has to give, so that a property of models is shown from the steps it is about. The check in document
order is about two things that no order matters for: declared names are distinct, and every
enumeration has enumerators.

## Main definitions

* `ModelOf`: what it means for a model to belong to a document
-/
namespace IdlBindings

/-! ## Results of steps that may fail -/

section Steps

variable {ε α β : Type}

theorem bind_eq_ok_iff {x : Except ε α} {f : α → Except ε β} {b : β} :
    x >>= f = .ok b ↔ ∃ a, x = .ok a ∧ f a = .ok b := by
  cases x <;> simp [bind, Except.bind]

theorem bind_eq_error_iff {x : Except ε α} {f : α → Except ε β} {e : ε} :
    x >>= f = .error e ↔ x = .error e ∨ ∃ a, x = .ok a ∧ f a = .error e := by
  cases x <;> simp [bind, Except.bind]

theorem pure_eq_ok_iff {a b : α} : (pure a : Except ε α) = .ok b ↔ a = b := by
  simp [pure, Except.pure]

/-- A list is gone through successfully exactly if each element is. -/
theorem mapM_eq_ok_iff {f : α → Except ε β} {xs : List α} {ys : List β} :
    xs.mapM f = .ok ys ↔ List.Forall₂ (fun x y => f x = .ok y) xs ys := by
  induction xs generalizing ys with
  | nil =>
      rw [List.mapM_nil, pure_eq_ok_iff, List.forall₂_nil_left_iff]
      exact eq_comm
  | cons x xs ih =>
      simp only [List.mapM_cons, bind_eq_ok_iff, pure_eq_ok_iff, ih]
      constructor
      · rintro ⟨y, hy, ys, hys, rfl⟩
        exact .cons hy hys
      · intro h
        cases h with
        | cons hy hys => exact ⟨_, hy, _, hys, rfl⟩

/-- Going through a list fails at one of its elements. -/
theorem exists_of_mapM_eq_error {f : α → Except ε β} {xs : List α} {e : ε}
    (h : xs.mapM f = .error e) : ∃ x ∈ xs, f x = .error e := by
  induction xs with
  | nil => cases h
  | cons x xs ih =>
      rw [List.mapM_cons, bind_eq_error_iff] at h
      rcases h with h | ⟨y, _, h⟩
      · exact ⟨x, List.mem_cons_self, h⟩
      · rw [bind_eq_error_iff] at h
        rcases h with h | ⟨_, _, h⟩
        · obtain ⟨x', hx', he⟩ := ih h
          exact ⟨x', List.mem_cons_of_mem x hx', he⟩
        · cases h

theorem exists_right_of_forall₂ {R : α → β → Prop} {xs : List α} {ys : List β}
    (h : List.Forall₂ R xs ys) {x : α} (hx : x ∈ xs) : ∃ y ∈ ys, R x y := by
  induction h with
  | nil => simp at hx
  | @cons a b xs ys hab _ ih =>
      rcases List.mem_cons.mp hx with rfl | hx
      · exact ⟨b, List.mem_cons_self, hab⟩
      · obtain ⟨y, hy, hxy⟩ := ih hx
        exact ⟨y, List.mem_cons_of_mem b hy, hxy⟩

end Steps

/-! ## The check in document order -/

namespace Definition

theorem check_cons_of_none {d : Definition} (h : d.declared? = none) (names : List String)
    (ds : List Definition) : check names (d :: ds) = check names ds := by
  rw [check]
  simp only [h]

theorem check_cons_eq_ok_iff {d : Definition} {name : String} (h : d.declared? = some name)
    {names : List String} {ds : List Definition} :
    check names (d :: ds) = .ok () ↔
      name ∉ names ∧ (∀ e, d.enum? = some e → ∃ v, e.toEnumeration = .ok v) ∧
        check (name :: names) ds = .ok () := by
  rw [check]
  simp only [h]
  by_cases hname : name ∈ names
  · simp [hname, throw, throwThe, MonadExceptOf.throw, bind, Except.bind]
  · cases he : d.enum? with
    | none => simp [hname]
    | some e => simp [hname, bind_eq_ok_iff]

theorem enum?_eq_none_of_declared? {d : Definition} (h : d.declared? = none) : d.enum? = none := by
  cases d <;> simp_all [declared?, enum?]

/-- The check passes exactly if no name is declared twice and each enumeration can be built. -/
theorem check_eq_ok_iff {names : List String} {ds : List Definition} :
    check names ds = .ok () ↔
      (ds.filterMap declared?).Nodup ∧ (∀ n ∈ ds.filterMap declared?, n ∉ names) ∧
        ∀ e ∈ ds.filterMap enum?, ∃ v, e.toEnumeration = .ok v := by
  induction ds generalizing names with
  | nil => simp [check]
  | cons d ds ih =>
      cases h : d.declared? with
      | none =>
          rw [check_cons_of_none h, ih, List.filterMap_cons_none h,
            List.filterMap_cons_none (enum?_eq_none_of_declared? h)]
      | some name =>
          rw [check_cons_eq_ok_iff h, ih, List.filterMap_cons_some h, List.nodup_cons]
          have henum : (∀ e ∈ (d :: ds).filterMap enum?, ∃ v, e.toEnumeration = .ok v) ↔
              (∀ e, d.enum? = some e → ∃ v, e.toEnumeration = .ok v) ∧
                ∀ e ∈ ds.filterMap enum?, ∃ v, e.toEnumeration = .ok v := by
            cases he : d.enum? <;> simp [he]
          rw [henum]
          simp only [List.mem_cons, forall_eq_or_imp, not_or]
          constructor
          · rintro ⟨hname, he, hnodup, hfresh, hes⟩
            exact ⟨⟨fun hmem => (hfresh name hmem).1 rfl, hnodup⟩,
              ⟨hname, fun n hn => (hfresh n hn).2⟩, he, hes⟩
          · rintro ⟨⟨hmem, hnodup⟩, ⟨hname, hfresh⟩, he, hes⟩
            refine ⟨hname, he, hnodup, fun n hn => ⟨?_, hfresh n hn⟩, hes⟩
            rintro rfl
            exact hmem hn

/-- What is read off declared definitions under their names has distinct names in a checked
document. -/
theorem nodup_filterMap_of_check {f : Definition → Option String}
    (hf : ∀ d n, f d = some n → d.declared? = some n) {ds : List Definition}
    (h : check [] ds = .ok ()) : (ds.filterMap f).Nodup := by
  have hnodup := (check_eq_ok_iff.mp h).1
  refine List.Nodup.sublist ?_ hnodup
  clear h hnodup
  induction ds with
  | nil => exact .slnil
  | cons d ds ih =>
      cases hd : f d with
      | none =>
          rw [List.filterMap_cons_none hd]
          exact ih.trans ((List.sublist_cons_self d ds).filterMap _)
      | some n =>
          rw [List.filterMap_cons_some hd, List.filterMap_cons_some (hf d n hd)]
          exact ih.cons_cons n

end Definition

/-! ## Models -/

/-- The model `m` belongs to a document, where `bodies` are its interfaces before inheritance. -/
structure ModelOf (ds : List Definition) (bodies : List (Body Member)) (m : Model) : Prop where
  checked : Definition.check [] ds = .ok ()
  merged : mergedInterfaces ds = .ok bodies
  interfaces : List.Forall₂ (fun b i => ∃ members,
    Body.flatten .interface Member.addsTo bodies b = .ok members ∧ Interface.mk b.name members = i)
    bodies m.interfaces
  dictionaries : List.Forall₂ (fun b d => ∃ fields,
    Body.flatten .dictionary Field.addsTo (mergedDictionaries ds) b = .ok fields ∧
      Dictionary.mk b.name fields = d)
    (mergedDictionaries ds) m.dictionaries
  enums : List.Forall₂ (fun d e => EnumDef.toEnumeration d = .ok e)
    (ds.filterMap Definition.enum?) m.enums
  typedefs : m.typedefs = ds.filterMap Definition.typedef?

/-- **A document has a model exactly if each step gives its part of it.** -/
theorem ofDefinitions_eq_ok_iff {ds : List Definition} {m : Model} :
    Model.ofDefinitions ds = .ok m ↔ ∃ bodies, ModelOf ds bodies m := by
  simp only [Model.ofDefinitions, bind_eq_ok_iff, pure_eq_ok_iff, mapM_eq_ok_iff]
  constructor
  · rintro ⟨_, hcheck, enums, henums, bodies, hmerged, interfaces, hi, dictionaries, hd, rfl⟩
    exact ⟨bodies, hcheck, hmerged, hi, hd, henums, rfl⟩
  · rintro ⟨bodies, h⟩
    obtain ⟨interfaces, dictionaries, enums, typedefs⟩ := m
    refine ⟨(), h.checked, enums, h.enums, bodies, h.merged, interfaces, h.interfaces,
      dictionaries, h.dictionaries, ?_⟩
    rw [← h.typedefs]

end IdlBindings
