import IdlBindings.Binding.Unit
import IdlBindings.Model.Check
import IdlBindings.Proofs.Model.Overloads
import Mathlib.Data.List.Pairwise

/-!
# Names of functions

The functions of a unit share one scope, and their names are put together from names of the document
with an underscore between them. Names of the document may have underscores themselves, and they may
begin with the words that tell an accessor from an operation. So two functions can have one name in
two ways: inside an interface, where an operation is named like a constructor or an accessor, and
between two interfaces, where the name of one goes on from that of the other with an underscore.
There is no third way.

## Main definitions

* `Interface.suffixes`: what follows the name of an interface in the names of its callbacks
* `Interface.IsClearOf`: two interfaces have no callbacks of one name
* `BindingUnit.functionNames`: the names of all functions of a unit
-/
namespace IdlBindings

namespace Interface

/-- What follows the name of an interface in the names of its accessors. -/
def accessorSuffixes (i : Interface) : List String :=
  i.attributes.flatMap fun a => ("get_" ++ a.name) :: if a.readonly then [] else ["set_" ++ a.name]

/-- What follows the name of an interface in the names of its callbacks. -/
def suffixes (i : Interface) : List String :=
  "constructor" :: i.overloadSets.map Prod.fst ++ i.accessorSuffixes

/-- Where the name of `j` goes on from that of `i`, no callback of `j` has the name of one
of `i`. -/
def IsClearOf (i j : Interface) : Prop :=
  ∀ w, j.name = i.name ++ "_" ++ w → ∀ s ∈ j.suffixes, w ++ "_" ++ s ∉ i.suffixes

end Interface

/-- The names of all functions that a unit has for its interfaces. -/
def BindingUnit.functionNames (u : BindingUnit) : List String :=
  (u.interfaces.flatMap InterfaceBinding.functions).map BindingName.text

/-! ## Texts of names -/

namespace BindingName

variable {owner name a b s t : String}

theorem text_operation (owner name : String) :
    (operation owner name).text = "webidl_napi_interface_" ++ (owner ++ "_" ++ name) := by
  have htext : (operation owner name).text = "webidl_napi_interface_" ++ owner ++ "_" ++ name := rfl
  simp only [htext, String.append_assoc]

theorem text_factory (owner : String) :
    (factory owner).text = "webidl_napi_create_interface_" ++ owner := rfl

/-! The other callbacks are named like operations. -/

theorem text_constructor (owner : String) :
    (constructor owner).text = (operation owner "constructor").text := by
  have htext : (constructor owner).text =
      "webidl_napi_interface_" ++ owner ++ ("_" ++ "constructor") := rfl
  simp only [htext, text_operation, String.append_assoc]

theorem text_getter (owner name : String) :
    (getter owner name).text = (operation owner ("get_" ++ name)).text := by
  have htext : (getter owner name).text =
      "webidl_napi_interface_" ++ owner ++ ("_" ++ "get_") ++ name := rfl
  simp only [htext, text_operation, String.append_assoc]

theorem text_setter (owner name : String) :
    (setter owner name).text = (operation owner ("set_" ++ name)).text := by
  have htext : (setter owner name).text =
      "webidl_napi_interface_" ++ owner ++ ("_" ++ "set_") ++ name := rfl
  simp only [htext, text_operation, String.append_assoc]

theorem text_operation_ne_factory : (operation owner name).text ≠ (factory a).text := by
  rw [text_operation, text_factory]
  intro h
  have hlist := congrArg (fun text => text.toList[12]?) h
  simp only [String.toList_append] at hlist
  rw [List.getElem?_append_left (by decide), List.getElem?_append_left (by decide)] at hlist
  revert hlist
  decide

theorem text_factory_inj : (factory a).text = (factory b).text ↔ a = b := by
  rw [text_factory, text_factory, String.append_right_inj]

/-- Operations of one owner have different names. -/
theorem text_operation_injective (owner : String) :
    Function.Injective fun name => (operation owner name).text := by
  intro s t h
  simpa only [text_operation, String.append_right_inj] using h

/-- Operations of different owners have one name if an underscore of the one name stands where the
owner of the other ends. -/
theorem text_operation_eq_iff (hne : a ≠ b) :
    (operation a s).text = (operation b t).text ↔
      (∃ w, b = a ++ "_" ++ w ∧ s = w ++ "_" ++ t) ∨
        ∃ w, a = b ++ "_" ++ w ∧ t = w ++ "_" ++ s := by
  rw [text_operation, text_operation, String.append_right_inj]
  constructor
  · intro h
    have hlist : a.toList ++ '_' :: s.toList = b.toList ++ '_' :: t.toList := by
      simpa using congrArg String.toList h
    -- What the longer owner has more begins with the underscore behind the shorter one.
    have hsplit : ∀ {a b s t : String} {more : List Char}, a ≠ b →
        b.toList = a.toList ++ more → '_' :: s.toList = more ++ '_' :: t.toList →
        ∃ w, b = a ++ "_" ++ w ∧ s = w ++ "_" ++ t := by
      intro a b s t more hne hb hs
      cases more with
      | nil => exact absurd (String.toList_inj.mp (by simpa using hb.symm)) hne
      | cons c more =>
          rw [List.cons_append, List.cons.injEq] at hs
          obtain ⟨rfl, hs⟩ := hs
          refine ⟨String.ofList more, String.toList_inj.mp ?_, String.toList_inj.mp ?_⟩
          · simpa using hb
          · simpa using hs
    rcases List.append_eq_append_iff.mp hlist with ⟨more, hb, hs⟩ | ⟨more, ha, ht⟩
    · exact .inl (hsplit hne hb hs)
    · exact .inr (hsplit (Ne.symm hne) ha ht)
  · rintro (⟨w, rfl, rfl⟩ | ⟨w, rfl, rfl⟩) <;> simp only [String.append_assoc]

end BindingName

/-! ## Inside an interface -/

namespace Interface

variable {i j : Interface} {s : String}

theorem mem_accessorSuffixes_iff :
    s ∈ i.accessorSuffixes ↔
      ∃ a ∈ i.attributes, s = "get_" ++ a.name ∨ a.readonly = false ∧ s = "set_" ++ a.name := by
  simp only [accessorSuffixes, List.mem_flatMap, List.mem_cons]
  refine exists_congr fun a => and_congr_right fun _ => or_congr_right ?_
  cases a.readonly <;> simp

theorem constructor_notMem_accessorSuffixes (i : Interface) :
    "constructor" ∉ i.accessorSuffixes := by
  rw [mem_accessorSuffixes_iff]
  rintro ⟨a, _, ha | ⟨_, ha⟩⟩ <;> simpa using congrArg String.toList ha

theorem nodup_accessorSuffixes (hi : (i.attributes.map Attribute.name).Nodup) :
    i.accessorSuffixes.Nodup := by
  have hkinds : ∀ a b : String, "get_" ++ a ≠ "set_" ++ b := by
    intro a b h
    simpa using congrArg String.toList h
  refine List.nodup_flatMap.mpr ⟨fun a _ => ?_, (List.pairwise_map.mp hi).imp ?_⟩
  · cases a.readonly <;> simp [hkinds]
  · intro a b hab s ha hb
    cases a.readonly <;> cases b.readonly <;> grind [String.append_right_inj]

theorem nodup_suffixes_iff (hi : (i.attributes.map Attribute.name).Nodup) :
    i.suffixes.Nodup ↔
      ∀ op ∈ i.operations, op.name ≠ "constructor" ∧ op.name ∉ i.accessorSuffixes := by
  rw [suffixes, List.cons_append, List.nodup_cons, List.nodup_append, List.mem_append, not_or]
  constructor
  · rintro ⟨⟨hconstructor, _⟩, _, _, hnames⟩ op hop
    have hmem : op.name ∈ i.overloadSets.map Prod.fst :=
      mem_names_overloadSets_iff.mpr ⟨op, hop, rfl⟩
    exact ⟨fun h => hconstructor (h ▸ hmem), fun h => hnames op.name hmem op.name h rfl⟩
  · intro hops
    refine ⟨⟨fun h => ?_, i.constructor_notMem_accessorSuffixes⟩, nodup_names_overloadSets i,
      nodup_accessorSuffixes hi, ?_⟩
    · obtain ⟨op, hop, hname⟩ := mem_names_overloadSets_iff.mp h
      exact (hops op hop).1 hname
    · rintro n hn _ haccessor rfl
      obtain ⟨op, hop, rfl⟩ := mem_names_overloadSets_iff.mp hn
      exact (hops op hop).2 haccessor

/-! ## Between interfaces -/

/-- The names of all functions of an interface. -/
def functionNames (i : Interface) : List String :=
  i.suffixes.map (fun s => (BindingName.operation i.name s).text) ++
    [(BindingName.factory i.name).text]

theorem map_text_functions (m : Model) (i : Interface) :
    (InterfaceBinding.ofInterface m i).functions.map BindingName.text = i.functionNames := by
  have haccessors : ∀ a, (i.attributeCallbacks m a).map (fun c => c.name.text) =
      (("get_" ++ a.name) :: if a.readonly then [] else ["set_" ++ a.name]).map
        fun s => (BindingName.operation i.name s).text := by
    intro a
    unfold attributeCallbacks
    cases a.readonly <;>
      simp [getterCallback, setterCallback, BindingName.text_getter, BindingName.text_setter]
  have hsets : (i.overloadSets.map (i.operationCallback m)).map (fun c => c.name.text) =
      (i.overloadSets.map Prod.fst).map fun s => (BindingName.operation i.name s).text := by
    rw [List.map_map, List.map_map]
    rfl
  have hcallbacks : (i.callbacks m).map (fun c => c.name.text) =
      i.suffixes.map fun s => (BindingName.operation i.name s).text := by
    rw [callbacks, suffixes, accessorSuffixes, List.map_append, List.map_append, List.map_cons,
      List.map_cons, List.map_flatMap, List.map_flatMap, hsets, ← BindingName.text_constructor]
    simp only [haccessors]
    rfl
  rw [InterfaceBinding.functions, List.map_append, List.map_map]
  exact congrArg (· ++ _) hcallbacks

theorem nodup_functionNames_iff (i : Interface) : i.functionNames.Nodup ↔ i.suffixes.Nodup := by
  rw [functionNames, List.nodup_append,
    List.nodup_map_iff (BindingName.text_operation_injective i.name)]
  refine ⟨And.left, fun h => ⟨h, List.nodup_singleton _, ?_⟩⟩
  rintro text htext _ hfactory rfl
  obtain ⟨s, _, rfl⟩ := List.mem_map.mp htext
  exact BindingName.text_operation_ne_factory (List.mem_singleton.mp hfactory)

theorem isClearOf_of_name_eq (h : i.name = j.name) : i.IsClearOf j := by
  intro w hw
  have hlength := congrArg String.length (h.trans hw)
  have hone : "_".length = 1 := rfl
  rw [String.length_append, String.length_append] at hlength
  omega

theorem isClearOf_and_isClearOf_iff (hne : i.name ≠ j.name) :
    i.IsClearOf j ∧ j.IsClearOf i ↔ ∀ s ∈ i.suffixes, ∀ t ∈ j.suffixes,
      (BindingName.operation i.name s).text ≠ (BindingName.operation j.name t).text := by
  constructor
  · rintro ⟨hij, hji⟩ s hs t ht heq
    rcases (BindingName.text_operation_eq_iff hne).mp heq with ⟨w, hw, rfl⟩ | ⟨w, hw, rfl⟩
    · exact hij w hw t ht hs
    · exact hji w hw s hs ht
  · intro h
    refine ⟨fun w hw t ht hs => h _ hs t ht ?_, fun w hw s hs ht => h s hs _ ht ?_⟩
    · exact (BindingName.text_operation_eq_iff hne).mpr (.inl ⟨w, hw, rfl⟩)
    · exact (BindingName.text_operation_eq_iff hne).mpr (.inr ⟨w, hw, rfl⟩)

theorem disjoint_functionNames_iff (hne : i.name ≠ j.name) :
    i.functionNames.Disjoint j.functionNames ↔ i.IsClearOf j ∧ j.IsClearOf i := by
  rw [isClearOf_and_isClearOf_iff hne]
  constructor
  · intro hdisjoint s hs t ht heq
    refine hdisjoint (List.mem_append_left _ (List.mem_map_of_mem hs)) ?_
    rw [heq]
    exact List.mem_append_left _ (List.mem_map_of_mem ht)
  · intro h text hi hj
    rw [functionNames, List.mem_append, List.mem_map, List.mem_singleton] at hi hj
    rcases hi with ⟨s, hs, rfl⟩ | rfl <;> rcases hj with ⟨t, ht, heq⟩ | heq
    · exact h s hs t ht heq.symm
    · exact BindingName.text_operation_ne_factory heq
    · exact BindingName.text_operation_ne_factory heq
    · exact hne (BindingName.text_factory_inj.mp heq)

end Interface

theorem BindingUnit.functionNames_ofModel (m : Model) (options : UnitOptions) :
    (ofModel m options).functionNames = m.interfaces.flatMap Interface.functionNames := by
  rw [functionNames, List.map_flatMap]
  simp only [ofModel, List.flatMap_map, Interface.map_text_functions]

/-- **When function names are distinct.** Where interfaces have different names, and attributes of
one interface too, all functions of a unit have different names exactly if no operation is named
`constructor` or like an accessor of its interface, and no interface has a name from which that of
another goes on so that callbacks meet. -/
theorem function_names_nodup_iff {m : Model} (options : UnitOptions)
    (hnames : (m.interfaces.map Interface.name).Nodup)
    (hattributes : ∀ i ∈ m.interfaces, (i.attributes.map Attribute.name).Nodup) :
    (BindingUnit.ofModel m options).functionNames.Nodup ↔
      (∀ i ∈ m.interfaces, ∀ op ∈ i.operations,
        op.name ≠ "constructor" ∧ op.name ∉ i.accessorSuffixes) ∧
      ∀ i ∈ m.interfaces, ∀ j ∈ m.interfaces, i.IsClearOf j := by
  have hinside : ∀ i ∈ m.interfaces, i.functionNames.Nodup ↔ ∀ op ∈ i.operations,
      op.name ≠ "constructor" ∧ op.name ∉ i.accessorSuffixes := fun i hi =>
    i.nodup_functionNames_iff.trans (Interface.nodup_suffixes_iff (hattributes i hi))
  have hbetween : m.interfaces.Pairwise (Function.onFun List.Disjoint Interface.functionNames) ↔
      ∀ i ∈ m.interfaces, ∀ j ∈ m.interfaces, i.IsClearOf j := by
    constructor
    · intro hpairs i hi j hj
      by_cases hname : i.name = j.name
      · exact Interface.isClearOf_of_name_eq hname
      · have hsymm : Std.Symm (Function.onFun List.Disjoint Interface.functionNames) :=
          ⟨fun _ _ h _ hi hj => h hj hi⟩
        have hdisjoint := hpairs.forall hi hj fun h => hname (congrArg Interface.name h)
        exact ((Interface.disjoint_functionNames_iff hname).mp hdisjoint).1
    · intro hclear
      refine (List.pairwise_map.mp hnames).imp_of_mem ?_
      intro i j hi hj hname
      exact (Interface.disjoint_functionNames_iff hname).mpr ⟨hclear i hi j hj, hclear j hj i hi⟩
  rw [BindingUnit.functionNames_ofModel, List.nodup_flatMap, hbetween]
  exact and_congr_left fun _ => forall₂_congr hinside

/-- A dial whose operation goes on like the name of another interface, which has no such
operation. -/
def dial : Interface where
  name := "Dial"
  members := [.attribute ⟨"level", .named "long", false, false, []⟩,
    .operation ⟨"hand_turn", [], none, false, []⟩]

def dialHand : Interface where
  name := "Dial_hand"
  members := [.operation ⟨"stop", [], none, false, []⟩]

theorem function_names_nodup_iff_dial :
    (([dial, dialHand].map Interface.name).Nodup ∧
      ∀ i ∈ [dial, dialHand], (i.attributes.map Attribute.name).Nodup) ∧
      (BindingUnit.ofModel ⟨[dial, dialHand], [], [], []⟩ {}).functionNames.Nodup := by
  have hnames : ([dial, dialHand].map Interface.name).Nodup := by decide
  have hattributes : ∀ i ∈ [dial, dialHand], (i.attributes.map Attribute.name).Nodup := by decide
  have hhand : dial.IsClearOf dialHand := by
    intro w hw
    have hw : "Dial" ++ "_" ++ "hand" = "Dial" ++ "_" ++ w := hw
    obtain rfl := (String.append_right_inj _).mp hw
    decide
  have hdial : dialHand.IsClearOf dial := by
    intro w hw
    have hlength := congrArg String.length hw
    rw [String.length_append, String.length_append] at hlength
    have hshort : dial.name.length < dialHand.name.length := by decide
    omega
  refine ⟨⟨hnames, hattributes⟩,
    (function_names_nodup_iff (m := ⟨[dial, dialHand], [], [], []⟩) {} hnames
      hattributes).mpr ⟨by decide, ?_⟩⟩
  simp only [List.mem_cons, List.not_mem_nil, or_false, forall_eq_or_imp, forall_eq]
  exact ⟨⟨Interface.isClearOf_of_name_eq rfl, hhand⟩, hdial, Interface.isClearOf_of_name_eq rfl⟩

/-- A gauge with an attribute, and an operation named like its getter. -/
def gauge : Interface where
  name := "Gauge"
  members := [.attribute ⟨"level", .named "long", true, false, []⟩,
    .operation ⟨"get_level", [], some (.named "long"), false, []⟩]

/-- Nothing forbids an operation that is named like an accessor, though the names of attributes and
operations are all different. -/
theorem accessor_named_operation_gauge :
    Model.check ⟨[gauge], [], [], []⟩ = .ok [] ∧
      (gauge.attributes.map Attribute.name ++ gauge.operations.map Operation.name).Nodup ∧
      (BindingUnit.ofModel ⟨[gauge], [], [], []⟩ {}).functionNames =
        ["webidl_napi_interface_Gauge_constructor", "webidl_napi_interface_Gauge_get_level",
          "webidl_napi_interface_Gauge_get_level", "webidl_napi_create_interface_Gauge"] ∧
      ¬(BindingUnit.ofModel ⟨[gauge], [], [], []⟩ {}).functionNames.Nodup := by
  have hnames : (BindingUnit.ofModel ⟨[gauge], [], [], []⟩ {}).functionNames =
      ["webidl_napi_interface_Gauge_constructor", "webidl_napi_interface_Gauge_get_level",
        "webidl_napi_interface_Gauge_get_level", "webidl_napi_create_interface_Gauge"] := by
    decide
  refine ⟨rfl, by decide, hnames, ?_⟩
  rw [hnames]
  decide

end IdlBindings
