import IdlBindings.Proofs.Binding.Closure
import IdlBindings.Proofs.Binding.Runs
import IdlBindings.Proofs.Binding.StubText

/-!
# The report of constructs without bindings

A unit reports what it throws for. Each part of a unit tests on its own whether it has bindings: an
alias by resolving its own name, a dictionary by looking for a field that cannot be converted, a
signature by all its types at once, and the two accessors of an attribute each for itself. All these
tests come down to the rules of `Model.Convertible`, so the report can be told from the document.

## Main definitions

* `Model.report`: the report, given the types without bindings
* `Model.IsBound`: everything has bindings
-/
namespace IdlBindings

/-! ## The report of a document -/

section Entries

variable (lacks : IdlType → Bool)

/-- The signature has no bindings: an argument stands for many, or a type has none. -/
def lacksSignature (arguments : List Argument) (result : Option IdlType) : Bool :=
  (arguments.any fun a => a.variadic || lacks a.type) || result.any lacks

/-- How the report names a signature: by the types of its arguments, with dots after one that stands
for many. -/
def signatureEntry (title : String) (arguments : List Argument) : String :=
  let types := arguments.map fun a => if a.variadic then a.type.text ++ "..." else a.type.text
  title ++ "(" ++ String.intercalate ", " types ++ ")"

def Typedef.entry (t : Typedef) : String := "typedef " ++ t.target.text ++ " " ++ t.name

def Dictionary.entry (d : Dictionary) (f : Field) : String :=
  "dictionary " ++ d.name ++ " member " ++ f.name ++ " of type " ++ f.type.text

namespace Interface

def constructorEntry (i : Interface) (c : Constructor) : String :=
  signatureEntry (i.name ++ " constructor") c.arguments

def operationEntry (i : Interface) (op : Operation) : String :=
  signatureEntry (i.name ++ "." ++ op.name) op.arguments

def attributeEntry (i : Interface) (a : Attribute) : String :=
  i.name ++ "." ++ a.name ++ " of type " ++ a.type.text

/-- The report of an interface: constructors, operations name by name, and attributes, where one
that can be written counts twice. -/
def report (i : Interface) : List String :=
  (i.constructors.filter fun c => lacksSignature lacks c.arguments none).map i.constructorEntry ++
    (operationsByName i.operations).flatMap (fun set =>
      (set.2.filter fun op => lacksSignature lacks op.arguments op.result).map i.operationEntry) ++
    (i.attributes.filter fun a => lacks a.type).flatMap fun a =>
      List.replicate (if a.readonly then 1 else 2) (i.attributeEntry a)

end Interface

/-- The report of a document: aliases without bindings, dictionaries by their first field without,
then interfaces. -/
def Model.report (m : Model) : List String :=
  (m.typedefs.filter fun t => lacks t.target).map Typedef.entry ++
    m.dictionaries.filterMap (fun d => (d.fields.find? fun f => lacks f.type).map d.entry) ++
    m.interfaces.flatMap (Interface.report lacks)

end Entries

/-- The signature has bindings by the rules. -/
structure Model.BindsSignature (m : Model) (arguments : List Argument) (result : Option IdlType) :
    Prop where
  arguments : ∀ a ∈ arguments, a.variadic = false ∧ m.Convertible a.type
  result : ∀ x ∈ result, m.Convertible x

/-- Everything in the document has bindings by the rules. -/
structure Model.IsBound (m : Model) : Prop where
  typedefs : ∀ t ∈ m.typedefs, m.Convertible t.target
  fields : ∀ d ∈ m.dictionaries, ∀ f ∈ d.fields, m.Convertible f.type
  constructors : ∀ i ∈ m.interfaces, ∀ c ∈ i.constructors, m.BindsSignature c.arguments none
  operations : ∀ i ∈ m.interfaces, ∀ op ∈ i.operations, m.BindsSignature op.arguments op.result
  attributes : ∀ i ∈ m.interfaces, ∀ a ∈ i.attributes, m.Convertible a.type

variable {m : Model}

/-- What is made of the elements that pass a test. -/
theorem flatMap_filter_eq {α β : Type} (p : α → Bool) (f : α → List β) (xs : List α) :
    (xs.filter p).flatMap f = xs.flatMap fun x => if p x then f x else [] := by
  induction xs with
  | nil => rfl
  | cons x xs ih => by_cases hx : p x = true <;> simp [hx, ih]

/-! ## Converters -/

/-- The type has no bindings. -/
def Model.lacks (m : Model) (x : IdlType) : Bool := (m.resolve? x).isNone

theorem Model.WellNamed.stub?_typedefRule (h : m.WellNamed) {t : Typedef} (ht : t ∈ m.typedefs) :
    (m.typedefRule t).stub? = if m.lacks t.target then some t.entry else none := by
  have hiff := h.resolve?_typedef_isSome_iff ht
  cases htarget : m.resolve? t.target with
  | none =>
      rw [htarget, Option.isSome_none, Bool.false_eq_true, iff_false,
        Option.not_isSome_iff_eq_none] at hiff
      simp [typedefRule, hiff, conversion?, lacks, htarget, ConversionRule.stub?, Typedef.entry]
  | some kind =>
      have hsome := hiff.mpr (by rw [htarget]; rfl)
      obtain ⟨basic, hname⟩ := h.resolve?_of_typedef? (h.typedef?_of_mem ht) hsome
      cases basic <;> simp [typedefRule, hname, conversion?, lacks, htarget, ConversionRule.stub?]

theorem Model.stub?_dictionaryRule (d : Dictionary) :
    (m.dictionaryRule d).stub? = (d.fields.find? fun f => m.lacks f.type).map d.entry := by
  have htest : (fun f : Field => (m.conversion? f.type).isNone) = fun f => m.lacks f.type := by
    funext f
    simp [conversion?, lacks]
  rw [dictionaryRule, htest]
  cases d.fields.find? fun f => m.lacks f.type <;> rfl

/-! ## Signatures -/

theorem Action.stubs_of_isArgumentStep {a : Action} (h : a.isArgumentStep = true) :
    a.stubs = [] := by
  cases a <;> first | rfl | cases h

theorem Invocation.stubs_callBlock (call : Invocation) (result : Option TypeKind) (passed : Nat) :
    (call.callBlock result passed).stubs = [] := by
  unfold callBlock
  split
  · rfl
  · rfl
  · split <;> rfl

theorem Invocation.isSupported_iff_lacksSignature {call : Invocation} :
    call.IsSupported m ↔ lacksSignature m.lacks call.arguments call.result = false := by
  rw [isSupported_iff, lacksSignature, Bool.or_eq_false_iff]
  cases call.result <;> simp [Model.lacks, Option.isSome_iff_ne_none]

theorem Invocation.isSupported_of_bound {call : Invocation}
    (harguments : (call.boundArguments? m).isSome = true)
    (hresult : (call.boundResult? m).isSome = true) : call.IsSupported m := by
  constructor
  · intro a ha
    by_contra hnot
    have hnone : (if a.variadic then none else (m.conversion? a.type).map (Prod.mk a)) = none := by
      cases hvariadic : a.variadic with
      | true => rfl
      | false => simpa [hvariadic, Model.conversion?] using hnot
    rw [boundArguments?, Model.mapM_eq_none_of_mem ha hnone] at harguments
    cases harguments
  · intro x hx
    simpa [boundResult?, hx] using hresult

/-- A signature throws just if it has no bindings. -/
theorem Model.stubs_invoke (call : Invocation) :
    (m.invoke call).stubs =
      if lacksSignature m.lacks call.arguments call.result then
        [signatureEntry call.name call.arguments]
      else [] := by
  cases hlacks : lacksSignature m.lacks call.arguments call.result with
  | false =>
      have hsupported := Invocation.isSupported_iff_lacksSignature.mpr hlacks
      rw [Block.stubs_eq, if_neg (by simp), List.flatMap_eq_nil_iff]
      intro a ha
      rcases mem_actions_invoke hsupported ha with hargument | ⟨passed, ha⟩
      · exact Action.stubs_of_isArgumentStep hargument
      · have hnil := call.stubs_callBlock (call.result.bind m.resolve?) passed
        rw [Block.stubs_eq, List.flatMap_eq_nil_iff] at hnil
        exact hnil a ha
  | true =>
      have hnot : ¬call.IsSupported m := by
        rw [Invocation.isSupported_iff_lacksSignature, hlacks]
        simp
      rw [invoke]
      split
      · rename_i bound result hbound hresult
        exact absurd (Invocation.isSupported_of_bound (by simp [hbound]) (by simp [hresult])) hnot
      · rfl

theorem Model.stubs_pickedLadder (calls : List (Invocation × Nat)) :
    (m.pickedLadder calls).stubs =
      (calls.map Prod.fst).flatMap fun call => (m.invoke call).stubs := by
  induction calls with
  | nil => rfl
  | cons call calls ih =>
      rw [pickedLadder, Block.stubs_choice, ih, List.map_cons, List.flatMap_cons]

/-- Overloads throw one by one; picking one does not. -/
theorem Model.stubs_overloads (calls : List Invocation) (name : String) :
    (m.overloads calls name).stubs = calls.flatMap fun call => (m.invoke call).stubs := by
  unfold overloads
  split
  · simp
  · rw [Block.append_eq, Block.stubs_append, stubs_pickedLadder, List.zipIdx_map_fst]
    rfl

/-- Of the signatures of a list, those without bindings throw. -/
theorem Model.stubs_overloads_map {α : Type} (xs : List α) (call : α → Invocation) (name : String) :
    (m.overloads (xs.map call) name).stubs =
      (xs.filter fun x => lacksSignature m.lacks (call x).arguments (call x).result).map fun x =>
        signatureEntry (call x).name (call x).arguments := by
  rw [stubs_overloads, List.flatMap_map, List.map_eq_flatMap, flatMap_filter_eq]
  exact List.flatMap_congr fun x _ => stubs_invoke (call x)

/-! ## Callbacks -/

namespace Interface

variable {i : Interface}

theorem stubs_constructBlock :
    (i.constructBlock m).stubs =
      (i.constructors.filter fun c => lacksSignature m.lacks c.arguments none).map
        i.constructorEntry := by
  rw [constructBlock]
  split
  · rename_i hempty
    rw [List.isEmpty_iff.mp hempty]
    rfl
  · exact Model.stubs_overloads_map ..

theorem stubs_constructorCallback :
    (i.constructorCallback m).body.stubs =
      (i.constructors.filter fun c => lacksSignature m.lacks c.arguments none).map
        i.constructorEntry := by
  rw [← stubs_constructBlock]
  simp [constructorCallback, Action.stubs]

@[simp] theorem stubs_readArguments (room : Nat) (receiver : Bool) :
    (readArguments room receiver).flatMap Action.stubs = [] := by
  rw [readArguments]
  split <;> split <;> rfl

@[simp] theorem stubs_unwrapReceiver (owner : String) :
    (unwrapReceiver owner).flatMap Action.stubs = [] := rfl

theorem stubs_operationCallback {name : String} {ops : List Operation}
    (hname : ∀ op ∈ ops, op.name = name) :
    (i.operationCallback m (name, ops)).body.stubs =
      (ops.filter fun op => lacksSignature m.lacks op.arguments op.result).map
        i.operationEntry := by
  have hentry : ∀ op ∈ ops.filter (fun op => lacksSignature m.lacks op.arguments op.result),
      signatureEntry (i.name ++ "." ++ name) op.arguments = i.operationEntry op := by
    intro op hop
    rw [operationEntry, hname op (List.mem_of_mem_filter hop)]
  rw [← List.map_congr_left hentry]
  have hoverloads := @Model.stubs_overloads_map m _ ops
    (i.operationCall (isStaticSet ops) (i.name ++ "." ++ name)) (i.name ++ "." ++ name)
  rw [operationCallback]
  dsimp only
  simp only [Block.append_eq, Block.stubs_append, hoverloads]
  cases isStaticSet ops <;> simp [Action.stubs, operationCall]

theorem stubs_getterActions (a : Attribute) (kind : TypeKind) :
    (i.getterActions a kind).flatMap Action.stubs = [] := by
  rw [getterActions]
  rcases i.slot? a.name with _ | slot
  all_goals split <;> split <;> simp [Action.stubs, -List.flatMap_eq_nil_iff]

theorem stubs_setterActions (a : Attribute) (conversion : Conversion) :
    (i.setterActions a conversion).flatMap Action.stubs = [] := by
  rw [setterActions]
  rcases i.slot? a.name with _ | slot
  all_goals split <;> simp [Action.stubs, -List.flatMap_eq_nil_iff]

theorem stubs_getterCallback (a : Attribute) :
    (i.getterCallback m a).body.stubs = if m.lacks a.type then [i.attributeEntry a] else [] := by
  rw [getterCallback]
  dsimp only
  cases hresolve : m.resolve? a.type with
  | none =>
      rw [Model.lacks, hresolve]
      rfl
  | some kind => simp [Model.lacks, hresolve, stubs_getterActions, -List.flatMap_eq_nil_iff]

theorem stubs_setterCallback (a : Attribute) :
    (i.setterCallback m a).body.stubs = if m.lacks a.type then [i.attributeEntry a] else [] := by
  rw [setterCallback]
  dsimp only
  cases hresolve : m.resolve? a.type with
  | none =>
      rw [Model.lacks, Model.conversion?, hresolve]
      rfl
  | some kind =>
      simp [Model.lacks, Model.conversion?, hresolve, stubs_setterActions,
        -List.flatMap_eq_nil_iff]

/-- Both accessors of an attribute throw, or none. -/
theorem stubs_attributeCallbacks (a : Attribute) :
    (i.attributeCallbacks m a).flatMap (fun c => c.body.stubs) =
      if m.lacks a.type then List.replicate (if a.readonly then 1 else 2) (i.attributeEntry a)
      else [] := by
  rw [attributeCallbacks, List.flatMap_cons, stubs_getterCallback]
  cases hlacks : m.lacks a.type <;> cases a.readonly <;> simp [stubs_setterCallback, hlacks]

/-- **The callbacks of an interface throw as its report says.** -/
theorem stubs_callbacks (i : Interface) :
    (i.callbacks m).flatMap (fun c => c.body.stubs) = i.report m.lacks := by
  have hoperations : ∀ set ∈ operationsByName i.operations,
      (i.operationCallback m set).body.stubs =
        (set.2.filter fun op => lacksSignature m.lacks op.arguments op.result).map
          i.operationEntry := by
    intro set hset
    obtain ⟨name, _, rfl⟩ := List.mem_map.mp hset
    refine stubs_operationCallback fun op hop => ?_
    simpa using (List.mem_filter.mp hop).2
  rw [callbacks, report, overloadSets_eq, List.flatMap_append, List.flatMap_cons, List.flatMap_map,
    List.flatMap_assoc, stubs_constructorCallback, List.flatMap_congr hoperations,
    flatMap_filter_eq]
  simp only [stubs_attributeCallbacks]

end Interface

/-! ## Units -/

theorem BindingUnit.unsupported_ofModel (h : m.WellNamed) (o : UnitOptions) :
    (ofModel m o).unsupported = m.report m.lacks := by
  have htypedefs : (m.typedefs.map (Typedef.converterPair m)).filterMap (fun p => p.rule.stub?) =
      (m.typedefs.filter fun t => m.lacks t.target).map Typedef.entry := by
    rw [List.filterMap_map, ← List.filterMap_eq_filter, List.map_filterMap]
    refine List.filterMap_congr fun t ht => ?_
    refine (h.stub?_typedefRule ht).trans ?_
    cases hlacks : m.lacks t.target <;> simp [Option.guard, hlacks]
  have hdictionaries : (m.dictionaries.map (Dictionary.converterPair m)).filterMap
      (fun p => p.rule.stub?) =
        m.dictionaries.filterMap fun d => (d.fields.find? fun f => m.lacks f.type).map d.entry := by
    rw [List.filterMap_map]
    exact List.filterMap_congr fun d _ => Model.stub?_dictionaryRule d
  have hinterfaces : (m.interfaces.map (InterfaceBinding.ofInterface m)).flatMap
      (fun b => b.callbacks.flatMap fun c => c.body.stubs) =
        m.interfaces.flatMap (Interface.report m.lacks) := by
    rw [List.flatMap_map]
    exact List.flatMap_congr fun i _ => i.stubs_callbacks
  rw [unsupported, Model.report, ← htypedefs, ← hdictionaries, ← hinterfaces]
  rfl

theorem Model.WellNamed.lacks_iff (h : m.WellNamed) (x : IdlType) :
    m.lacks x = true ↔ ¬m.Convertible x := by
  rw [← h.resolve?_isSome_iff_convertible, lacks]
  simp

section Empty

variable {lacks : IdlType → Bool}

theorem Model.lacks_eq_false_iff (hlacks : ∀ x, lacks x = true ↔ ¬m.Convertible x) (x : IdlType) :
    lacks x = false ↔ m.Convertible x := by
  rw [← Bool.not_eq_true, hlacks, not_not]

theorem Model.lacksSignature_eq_false_iff (hlacks : ∀ x, lacks x = true ↔ ¬m.Convertible x)
    (arguments : List Argument) (result : Option IdlType) :
    lacksSignature lacks arguments result = false ↔ m.BindsSignature arguments result := by
  have hresult : result.any lacks = false ↔ ∀ x ∈ result, m.Convertible x := by
    cases result <;> simp [lacks_eq_false_iff hlacks]
  rw [lacksSignature, Bool.or_eq_false_iff, hresult, List.any_eq_false]
  simp only [Bool.not_eq_true, Bool.or_eq_false_iff, lacks_eq_false_iff hlacks]
  exact ⟨fun h => ⟨h.1, h.2⟩, fun h => ⟨h.arguments, h.result⟩⟩

/-- Every operation is in the set of its name. -/
theorem forall_mem_operationsByName {ops : List Operation} {P : Operation → Prop} :
    (∀ set ∈ operationsByName ops, ∀ op ∈ set.2, P op) ↔ ∀ op ∈ ops, P op := by
  constructor
  · intro h op hop
    refine h (op.name, ops.filter fun other => other.name == op.name) ?_ op ?_
    · exact List.mem_map.mpr ⟨op.name, List.mem_eraseDups.mpr (List.mem_map_of_mem hop), rfl⟩
    · exact List.mem_filter.mpr ⟨hop, beq_self_eq_true _⟩
  · intro h set hset op hop
    obtain ⟨name, _, rfl⟩ := List.mem_map.mp hset
    exact h op (List.mem_of_mem_filter hop)

theorem Interface.report_eq_nil_iff (hlacks : ∀ x, lacks x = true ↔ ¬m.Convertible x)
    (i : Interface) :
    i.report lacks = [] ↔
      (∀ c ∈ i.constructors, m.BindsSignature c.arguments none) ∧
        (∀ op ∈ i.operations, m.BindsSignature op.arguments op.result) ∧
        ∀ a ∈ i.attributes, m.Convertible a.type := by
  have hsignature := Model.lacksSignature_eq_false_iff hlacks
  have hattributes : ((i.attributes.filter fun a => lacks a.type).flatMap fun a =>
      List.replicate (if a.readonly then 1 else 2) (i.attributeEntry a)) = [] ↔
        ∀ a ∈ i.attributes, m.Convertible a.type := by
    simp only [flatMap_filter_eq, List.flatMap_eq_nil_iff, ← Model.lacks_eq_false_iff hlacks]
    refine forall₂_congr fun a _ => ?_
    cases lacks a.type <;> cases a.readonly <;> simp
  rw [report, List.append_eq_nil_iff, List.append_eq_nil_iff, hattributes, and_assoc]
  simp only [List.map_eq_nil_iff, List.filter_eq_nil_iff, List.flatMap_eq_nil_iff,
    Bool.not_eq_true, hsignature, forall_mem_operationsByName]

theorem Model.report_eq_nil_iff (hlacks : ∀ x, lacks x = true ↔ ¬m.Convertible x) :
    m.report lacks = [] ↔ m.IsBound := by
  have hconvertible := lacks_eq_false_iff hlacks
  simp only [report, List.append_eq_nil_iff, List.map_eq_nil_iff, List.filter_eq_nil_iff,
    List.filterMap_eq_nil_iff, Option.map_eq_none_iff, List.find?_eq_none, List.flatMap_eq_nil_iff,
    Bool.not_eq_true, hconvertible, Interface.report_eq_nil_iff hlacks]
  constructor
  · rintro ⟨⟨htypedefs, hfields⟩, hinterfaces⟩
    exact ⟨htypedefs, hfields, fun i hi => (hinterfaces i hi).1,
      fun i hi => (hinterfaces i hi).2.1, fun i hi => (hinterfaces i hi).2.2⟩
  · intro h
    exact ⟨⟨h.typedefs, h.fields⟩, fun i hi =>
      ⟨h.constructors i hi, h.operations i hi, h.attributes i hi⟩⟩

end Empty

/-- **The report is exact.** Where no name has two meanings, a unit reports just the constructs that
have no bindings by the rules, in the order of the unit. Each is named by a line of the unit that
throws, and nothing is reported exactly if everything has bindings. -/
theorem unsupported_report_exact {m : Model} (h : m.WellNamed) (o : UnitOptions) :
    (∃ lacks : IdlType → Bool, (∀ x, lacks x = true ↔ ¬m.Convertible x) ∧
        (BindingUnit.ofModel m o).unsupported = m.report lacks) ∧
      (∀ entry ∈ (BindingUnit.ofModel m o).unsupported,
        (throwNotImplemented entry).toList <:+: (BindingUnit.ofModel m o).source.toList) ∧
      ((BindingUnit.ofModel m o).unsupported = [] ↔ m.IsBound) := by
  have hreport := BindingUnit.unsupported_ofModel h o
  refine ⟨⟨m.lacks, h.lacks_iff, hreport⟩, fun _ => BindingUnit.infix_of_mem_unsupported, ?_⟩
  rw [hreport]
  exact Model.report_eq_nil_iff h.lacks_iff

/-- An alias of an alias without bindings, and an interface with members of all kinds that have
none. -/
def cabinet : Model where
  interfaces := [⟨"Cabinet",
    [.attribute ⟨"lid", .named "Loose", false, false, []⟩,
      .operation ⟨"open", [⟨"keys", .named "long", true, true, none⟩], none, false, []⟩,
      .operation ⟨"close", [], none, false, []⟩,
      .operation ⟨"open", [⟨"key", .named "long", false, false, none⟩], some (.named "any"), false,
        []⟩,
      .constructor ⟨[⟨"kind", .named "any", false, false, none⟩], []⟩,
      .attribute ⟨"back", .named "any", true, false, []⟩]⟩]
  dictionaries := [⟨"Drawer", [⟨"width", .named "long", false, none⟩,
    ⟨"front", .named "Looser", false, none⟩, ⟨"rear", .named "any", false, none⟩]⟩]
  enums := []
  typedefs := [⟨"Looser", .named "Loose"⟩, ⟨"Loose", .named "any"⟩]

theorem unsupported_report_exact_cabinet :
    cabinet.WellNamed ∧
      (BindingUnit.ofModel cabinet {}).unsupported =
        ["typedef Loose Looser", "typedef any Loose",
          "dictionary Drawer member front of type Looser", "Cabinet constructor(any)",
          "Cabinet.open(long...)", "Cabinet.open(long)", "Cabinet.lid of type Loose",
          "Cabinet.lid of type Loose", "Cabinet.back of type any"] ∧
      (throwNotImplemented "Cabinet.open(long...)").toList <:+:
        (BindingUnit.ofModel cabinet {}).source.toList ∧
      ¬cabinet.IsBound := by
  have hnamed : cabinet.WellNamed := by
    refine ⟨by decide, fun s hs k => ?_⟩
    cases k <;> revert s <;> decide
  obtain ⟨_, hshown, hempty⟩ := unsupported_report_exact hnamed {}
  have hmem : "Cabinet.open(long...)" ∈ (BindingUnit.ofModel cabinet {}).unsupported := by decide
  refine ⟨hnamed, by decide, hshown _ hmem, ?_⟩
  intro hbound
  rw [hempty.mpr hbound] at hmem
  cases hmem

end IdlBindings
