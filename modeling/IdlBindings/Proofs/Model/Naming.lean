import IdlBindings.Proofs.Model.Merging
import Mathlib.Data.List.Pairwise

/-!
# One name, one definition

A model has four lists, and every name is meant to stand in one of them only. The check in document
order sees to that for definitions that are not partial. A partial definition passes it unseen, and
becomes the definition of its name in its own list if that list has no other. So a name can stand in
two lists, exactly if a partial definition has the name of a definition of another kind.

## Main definitions

* `EntryKind`, `Model.keys`: the four lists and the names in them
* `Definition.place?`: the list and the name that a definition goes to
-/
namespace IdlBindings

/-- The kinds of entries of a model. -/
inductive EntryKind where
  | interface | dictionary | enumeration | typedef
deriving DecidableEq, Repr

/-- The names in one list of a model, in order. -/
def Model.keys (m : Model) : EntryKind → List String
  | .interface => m.interfaces.map Interface.name
  | .dictionary => m.dictionaries.map Dictionary.name
  | .enumeration => m.enums.map Enumeration.name
  | .typedef => m.typedefs.map Typedef.name

namespace Definition

/-- The list of the model that a definition goes to, and under which name. A mixin or an includes
statement goes to none. -/
def place? : Definition → Option (EntryKind × String)
  | interface d => some (.interface, d.name)
  | dictionary d => some (.dictionary, d.name)
  | enumeration d => some (.enumeration, d.name)
  | typedef d => some (.typedef, d.name)
  | mixin _ => none
  | includes _ => none

/-- The definition extends another one of its name, if there is one. -/
def isPartial : Definition → Bool
  | interface d => d.isPartial
  | mixin d => d.isPartial
  | dictionary d => d.isPartial
  | _ => false

/-- What goes into the model and is not partial is declared. -/
theorem declared?_of_place? {d : Definition} {k : EntryKind} {n : String}
    (h : d.place? = some (k, n)) (hpart : d.isPartial = false) : d.declared? = some n := by
  cases d <;> simp_all [place?, isPartial, declared?]

/-- In a checked document a declared name tells its definition. -/
theorem eq_of_declared? {ds : List Definition} (hcheck : check [] ds = .ok ()) {d d' : Definition}
    (hd : d ∈ ds) (hd' : d' ∈ ds) {n : String} (hn : d.declared? = some n)
    (hn' : d'.declared? = some n) : d = d' := by
  have hnodup := (check_eq_ok_iff.mp hcheck).1
  rw [List.Nodup, List.pairwise_filterMap] at hnodup
  have : Std.Symm fun a b : Definition =>
      ∀ x, a.declared? = some x → ∀ y, b.declared? = some y → x ≠ y :=
    ⟨fun a b h x hx y hy => (h y hy x hx).symm⟩
  by_contra hne
  exact hnodup.forall hd hd' hne n hn n hn' rfl

theorem exists_mem_place?_iff {ds : List Definition} {δ : Type} {mk : δ → Definition}
    {name : δ → String} {k : EntryKind} {n : String}
    (hentry : ∀ d, d.place? = some (k, n) ↔ ∃ e, mk e = d ∧ name e = n) :
    (∃ d ∈ ds, d.place? = some (k, n)) ↔ ∃ e, mk e ∈ ds ∧ name e = n := by
  simp only [hentry]
  constructor
  · rintro ⟨_, hd, e, rfl, hn⟩
    exact ⟨e, hd, hn⟩
  · rintro ⟨e, hd, hn⟩
    exact ⟨_, hd, e, rfl, hn⟩

end Definition

/-! ## The names in each list -/

section Keys

variable {ds : List Definition} {bodies : List (Body Member)} {m : Model} {n : String}

theorem declared?_of_dictionaryBody? {d : Definition} {b : Body Field}
    (h : d.dictionaryBody? false = some b) : d.declared? = some b.name := by
  cases d with
  | dictionary d =>
      cases hp : d.isPartial with
      | true => simp [Definition.dictionaryBody?, hp] at h
      | false =>
          obtain rfl : _ = b := by simpa [Definition.dictionaryBody?, hp] using h
          simp [Definition.declared?, hp]
  | _ => simp [Definition.dictionaryBody?] at h

theorem mem_names_dictionaryBody?_iff {part : Bool} :
    n ∈ Body.names (ds.filterMap (Definition.dictionaryBody? part)) ↔
      ∃ d : DictionaryDef, .dictionary d ∈ ds ∧ d.name = n ∧ d.isPartial = part := by
  simp only [Body.names, List.mem_map, List.mem_filterMap]
  constructor
  · rintro ⟨b, ⟨d, hd, hb⟩, rfl⟩
    cases d with
    | dictionary d =>
        obtain ⟨hpart, rfl⟩ : d.isPartial = part ∧ _ = b := by
          simpa [Definition.dictionaryBody?] using hb
        exact ⟨d, hd, rfl, hpart⟩
    | _ => simp [Definition.dictionaryBody?] at hb
  · rintro ⟨d, hd, rfl, rfl⟩
    exact ⟨⟨d.name, d.parent, d.fields⟩, ⟨_, hd, by simp [Definition.dictionaryBody?]⟩, rfl⟩

theorem mem_names_mergedDictionaries_iff :
    n ∈ Body.names (mergedDictionaries ds) ↔
      ∃ d : DictionaryDef, .dictionary d ∈ ds ∧ d.name = n := by
  rw [mergedDictionaries, Body.mem_names_withPartials, mem_names_dictionaryBody?_iff,
    mem_names_dictionaryBody?_iff]
  constructor
  · rintro (⟨d, hd, hn, _⟩ | ⟨d, hd, hn, _⟩) <;> exact ⟨d, hd, hn⟩
  · rintro ⟨d, hd, hn⟩
    cases hp : d.isPartial with
    | true => exact .inr ⟨d, hd, hn, hp⟩
    | false => exact .inl ⟨d, hd, hn, hp⟩

namespace ModelOf

theorem names_dictionaries (h : ModelOf ds bodies m) :
    m.dictionaries.map Dictionary.name = Body.names (mergedDictionaries ds) := by
  rw [Body.names, eq_comm, ← List.forall₂_eq_eq_eq, List.forall₂_map_left_iff,
    List.forall₂_map_right_iff]
  refine h.dictionaries.imp ?_
  rintro b d ⟨fields, _, rfl⟩
  rfl

theorem names_enums (h : ModelOf ds bodies m) :
    m.enums.map Enumeration.name =
      ds.filterMap fun d => d.enum?.map EnumDef.name := by
  rw [← List.map_filterMap, eq_comm, ← List.forall₂_eq_eq_eq, List.forall₂_map_left_iff,
    List.forall₂_map_right_iff]
  refine h.enums.imp fun d e he => ?_
  obtain ⟨values, _, rfl⟩ : ∃ values, enumValues d.name d.values = .ok values ∧
      Enumeration.mk d.name values = e := by
    simpa only [EnumDef.toEnumeration, bind_eq_ok_iff, pure_eq_ok_iff] using he
  rfl

theorem names_typedefs (h : ModelOf ds bodies m) :
    m.typedefs.map Typedef.name = ds.filterMap fun d => d.typedef?.map Typedef.name := by
  rw [h.typedefs, List.map_filterMap]

/-- A name stands in a list of the model exactly if a definition of that kind has it. -/
theorem mem_keys_iff (h : ModelOf ds bodies m) {k : EntryKind} :
    n ∈ m.keys k ↔ ∃ d ∈ ds, d.place? = some (k, n) := by
  cases k with
  | interface =>
      rw [Model.keys, h.names_interfaces, (mergedInterfaces_spec h.checked h.merged).1,
        mem_declaredOrder_iff, Definition.exists_mem_place?_iff]
      intro d
      cases d <;> simp [Definition.place?]
  | dictionary =>
      rw [Model.keys, h.names_dictionaries, mem_names_mergedDictionaries_iff,
        Definition.exists_mem_place?_iff]
      intro d
      cases d <;> simp [Definition.place?]
  | enumeration =>
      rw [Model.keys, h.names_enums, List.mem_filterMap]
      refine exists_congr fun d => and_congr_right fun _ => ?_
      cases d <;> simp [Definition.place?, Definition.enum?]
  | typedef =>
      rw [Model.keys, h.names_typedefs, List.mem_filterMap]
      refine exists_congr fun d => and_congr_right fun _ => ?_
      cases d <;> simp [Definition.place?, Definition.typedef?]

/-- Within a list every name stands once. -/
theorem nodup_keys (h : ModelOf ds bodies m) (k : EntryKind) : (m.keys k).Nodup := by
  cases k with
  | interface =>
      rw [Model.keys, h.names_interfaces]
      exact (mergedInterfaces_spec h.checked h.merged).2.1
  | dictionary =>
      rw [Model.keys, h.names_dictionaries]
      exact Body.nodup_names_withPartials
        (nodup_names_of_check (fun _ _ => declared?_of_dictionaryBody?) h.checked)
  | enumeration =>
      rw [Model.keys, h.names_enums]
      refine Definition.nodup_filterMap_of_check (fun d n hn => ?_) h.checked
      cases d <;> simp_all [Definition.enum?, Definition.declared?]
  | typedef =>
      rw [Model.keys, h.names_typedefs]
      refine Definition.nodup_filterMap_of_check (fun d n hn => ?_) h.checked
      cases d <;> simp_all [Definition.typedef?, Definition.declared?]

end ModelOf
end Keys

/-! ## One list for each name -/

/-- **A name belongs to one list, partial definitions apart.** The lists of a model have distinct
names. No name stands in two of them exactly if no partial definition has the name of a definition
of another kind. -/
theorem name_in_one_list_iff {ds : List Definition} {m : Model}
    (h : Model.ofDefinitions ds = .ok m) :
    (∀ k, (m.keys k).Nodup) ∧
      ((∀ n k k', n ∈ m.keys k → n ∈ m.keys k' → k = k') ↔
        ∀ d ∈ ds, ∀ d' ∈ ds, d.isPartial = true →
          ∀ n k k', d.place? = some (k, n) → d'.place? = some (k', n) → k = k') := by
  obtain ⟨bodies, hm⟩ := ofDefinitions_eq_ok_iff.mp h
  refine ⟨hm.nodup_keys, ?_, ?_⟩
  · intro hone d hd d' hd' _ n k k' hn hn'
    exact hone n k k' (hm.mem_keys_iff.mpr ⟨d, hd, hn⟩) (hm.mem_keys_iff.mpr ⟨d', hd', hn'⟩)
  · intro hpartial n k k' hk hk'
    obtain ⟨d, hd, hn⟩ := hm.mem_keys_iff.mp hk
    obtain ⟨d', hd', hn'⟩ := hm.mem_keys_iff.mp hk'
    cases hp : d.isPartial with
    | true => exact hpartial d hd d' hd' hp n k k' hn hn'
    | false =>
        cases hp' : d'.isPartial with
        | true => exact (hpartial d' hd' d hd hp' n k' k hn' hn).symm
        | false =>
            -- Neither is partial, so the check has seen both and they are the same definition.
            obtain rfl := Definition.eq_of_declared? hm.checked hd hd'
              (Definition.declared?_of_place? hn hp) (Definition.declared?_of_place? hn' hp')
            rw [hn, Option.some.injEq, Prod.mk.injEq] at hn'
            exact hn'.1

/-- An interface that is extended before it is defined, and a dictionary with partial definitions
only. -/
def extendedInPlace : List Definition :=
  [.interface ⟨"A", true, none, [], []⟩, .dictionary ⟨"D", true, none, []⟩,
    .interface ⟨"A", false, none, [], []⟩, .dictionary ⟨"D", true, none, []⟩,
    .enumeration ⟨"E", ["a"]⟩]

theorem name_in_one_list_extendedInPlace :
    ∃ m, Model.ofDefinitions extendedInPlace = .ok m ∧
      ∀ n k k', n ∈ m.keys k → n ∈ m.keys k' → k = k' := by
  obtain ⟨m, hm⟩ : ∃ m, Model.ofDefinitions extendedInPlace = .ok m := ⟨_, rfl⟩
  refine ⟨m, hm, (name_in_one_list_iff hm).2.mpr ?_⟩
  simp [extendedInPlace, Definition.isPartial, Definition.place?]

/-- A partial interface and a dictionary share a name, and both get into the model. -/
theorem partial_shares_name :
    ∃ m, Model.ofDefinitions
        [.interface ⟨"A", true, none, [], []⟩, .dictionary ⟨"A", false, none, []⟩] = .ok m ∧
      "A" ∈ m.keys .interface ∧ "A" ∈ m.keys .dictionary :=
  ⟨_, rfl, by decide, by decide⟩

end IdlBindings
