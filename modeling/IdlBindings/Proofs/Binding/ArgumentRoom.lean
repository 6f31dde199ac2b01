import IdlBindings.Model.Check
import IdlBindings.Proofs.Binding.Scopes
import IdlBindings.Proofs.Model.Overloads

/-!
# Room for arguments

A callback declares an array for the arguments of the call, with room for those of its longest
signature. Everything that reads the arguments has to come after that, and may only look at places
that the array has. The array and its uses are written apart from one another: the callback knows
how long its signatures are, and each signature how many arguments it has.

A callback whose signatures take no arguments declares no array. That is right for a single one,
which reads none. Several of them are told apart by the arguments of the call all the same, and read
an array that is not there.

## Main definitions

* `Action.readsArguments`: the step mentions the arguments of the call, or their number
* `Place.IsInRoom`: a step that reads arguments has room for them
-/
namespace IdlBindings

namespace Action

/-- The step mentions the arguments of the call or their number. -/
def readsArguments : Action → Bool
  | readCall arguments _ => arguments
  | capArguments _ => true
  | takeExternal _ => true
  | pick _ _ => true
  | findArgument _ => true
  | toNative _ _ _ => true
  | _ => false

/-- The place in the array that a step looks at. A native object is given as the first argument. -/
def argument? : Action → Option Nat
  | takeExternal _ => some 0
  | findArgument index => some index
  | toNative _ index _ => some index
  | _ => none

/-- The room of the array that a step declares. -/
def room? : Action → Option Nat
  | declareArguments size => some size
  | _ => none

/-- The step can follow the declaration of an array with that room. -/
def FitsIn (room : Nat) (a : Action) : Prop :=
  a.room? = none ∧ ∀ index, a.argument? = some index → index < room

/-- A step that reads no argument by its index fits anywhere. -/
theorem FitsIn.of_argument?_eq_none {room : Nat} {a : Action} (h : a.argument? = none)
    (hroom : a.room? = none) : a.FitsIn room := by
  refine ⟨hroom, fun index hindex => ?_⟩
  rw [h] at hindex
  cases hindex

/-- A step that mentions no argument fits anywhere. -/
theorem fitsIn_of_not_readsArguments {room : Nat} {a : Action} (h : a.readsArguments = false)
    (hroom : a.room? = none) : a.FitsIn room := by
  refine ⟨hroom, fun index hindex => ?_⟩
  cases a with
  | takeExternal | findArgument | toNative => cases h
  | _ => cases hindex

theorem FitsIn.mono {n room : Nat} {a : Action} (h : a.FitsIn n) (hroom : n ≤ room) :
    a.FitsIn room :=
  ⟨h.1, fun index hindex => Nat.lt_of_lt_of_le (h.2 index hindex) hroom⟩

end Action

/-- Before a step that reads arguments, one array is declared. It has the place that the step looks
at, and room for signatures of the given lengths. -/
def Place.IsInRoom (arities : List Nat) (scope : List Action) : Place → Prop
  | step a => a.readsArguments = true → ∃ room, scope.filterMap Action.room? = [room] ∧
      (∀ index, a.argument? = some index → index < room) ∧ ∀ n ∈ arities, n ≤ room
  | test _ => True

variable {m : Model} {i : Interface} {call : Invocation} {a : Action} {arities : List Nat}
  {scope : List Action} {room : Nat}

/-! ## Blocks -/

namespace Block

/-- Once there is an array, steps that fit in it may follow. -/
theorem everywhere_of_fitsIn {b : Block} (hscope : scope.filterMap Action.room? = [room])
    (harities : ∀ n ∈ arities, n ≤ room) (hb : ∀ a ∈ b.actions, a.FitsIn room) :
    b.Everywhere (Place.IsInRoom arities) scope := by
  refine everywhere_of_invariant (fun scope => scope.filterMap Action.room? = [room]) hscope ?_
    fun _ _ _ => trivial
  intro a ha scope hscope
  refine ⟨fun _ => ⟨room, hscope, (hb a ha).2, harities⟩, ?_⟩
  simp [hscope, (hb a ha).1]

/-- Without an array, steps that read no arguments may stand anywhere. -/
theorem everywhere_of_not_readsArguments {b : Block}
    (hb : ∀ a ∈ b.actions, a.readsArguments = false) :
    b.Everywhere (Place.IsInRoom arities) scope := by
  refine everywhere_of_invariant (fun _ => True) trivial ?_ fun _ _ _ => trivial
  intro a ha scope _
  exact ⟨fun hreads => by simp [hb a ha] at hreads, trivial⟩

/-- Steps that declare an array, and after that fit in it. -/
theorem everywhere_ofActions_of_fitsIn {before after : List Action}
    (harities : ∀ n ∈ arities, n ≤ room)
    (hbefore : ∀ a ∈ before, a.readsArguments = false ∧ a.room? = none)
    (hafter : ∀ a ∈ after, a.FitsIn room) :
    (ofActions (before ++ .declareArguments room :: after)).Everywhere
      (Place.IsInRoom arities) [] := by
  have hnone : before.filterMap Action.room? = [] :=
    List.filterMap_eq_nil_iff.mpr fun a ha => (hbefore a ha).2
  rw [List.append_cons, everywhere_ofActions_append]
  refine ⟨everywhere_of_not_readsArguments ?_, everywhere_of_fitsIn ?_ harities ?_⟩
  · rw [actions_ofActions, List.forall_mem_append, List.forall_mem_singleton]
    exact ⟨fun a ha => (hbefore a ha).1, rfl⟩
  · simp [hnone, Action.room?]
  · rwa [actions_ofActions]

/-- Steps that declare an array, and a block after them that fits in it. -/
theorem everywhere_append_of_fitsIn (before after : List Action) {rest : Block}
    (harities : ∀ n ∈ arities, n ≤ room)
    (hbefore : ∀ a ∈ before, a.readsArguments = false ∧ a.room? = none)
    (hafter : ∀ a ∈ after, a.FitsIn room) (hrest : ∀ a ∈ rest.actions, a.FitsIn room) :
    (ofActions (before ++ .declareArguments room :: after) ++ rest).Everywhere
      (Place.IsInRoom arities) [] := by
  have hnone : before.filterMap Action.room? = [] :=
    List.filterMap_eq_nil_iff.mpr fun a ha => (hbefore a ha).2
  have hquiet : after.filterMap Action.room? = [] :=
    List.filterMap_eq_nil_iff.mpr fun a ha => (hafter a ha).1
  rw [append_eq, everywhere_append, outer_ofActions]
  refine ⟨everywhere_ofActions_of_fitsIn harities hbefore hafter,
    everywhere_of_fitsIn ?_ harities hrest⟩
  simp [hnone, hquiet, Action.room?]

end Block

/-! ## Signatures -/

/-- What the code of a signature is made of. -/
theorem Model.mem_actions_invoke_cases (ha : a ∈ (m.invoke call).actions) :
    (∃ arg c index, index < call.arguments.length ∧ a ∈ (m.argumentBlock arg c index).actions) ∨
      (∃ result passed, a ∈ (call.callBlock result passed).actions) ∨
      a = .notImplemented call.describe := by
  rw [invoke] at ha
  split at ha
  · next bound result hbound _ =>
      rw [Block.actions_foldr_append, List.mem_append, List.mem_flatMap] at ha
      rcases ha with ⟨b, hb, ha⟩ | ha
      · obtain ⟨⟨⟨arg, c⟩, index⟩, hindex, rfl⟩ := List.mem_map.mp hb
        refine .inl ⟨arg, c, index, ?_, ha⟩
        rw [← Invocation.map_fst_boundArguments hbound, List.length_map]
        exact (List.getElem?_eq_some_iff.mp (List.mk_mem_zipIdx_iff_getElem?.mp hindex)).1
      · exact .inr (.inl ⟨_, Block.exists_mem_actions_of_ladder ha⟩)
  · exact .inr (.inr (by simpa using ha))

theorem Model.fitsIn_of_mem_argumentBlock {arg : Argument} {c : Conversion} {index : Nat}
    (hindex : index < room) (ha : a ∈ (m.argumentBlock arg c index).actions) : a.FitsIn room := by
  have hall : ∀ a ∈ (m.argumentBlock arg c index).actions, a.FitsIn room := by
    rw [argumentBlock]
    cases arg.optional <;>
      simp [Block.actions, Block.choice, Action.FitsIn, Action.room?, Action.argument?, hindex]
  exact hall a ha

/-- What is passed on to the native function has been read before. -/
theorem Invocation.not_readsArguments_of_mem_callBlock {result : Option TypeKind} {passed : Nat}
    (ha : a ∈ (call.callBlock result passed).actions) :
    a.readsArguments = false ∧ a.room? = none := by
  have hall : ∀ a ∈ (call.callBlock result passed).actions,
      a.readsArguments = false ∧ a.room? = none := by
    unfold callBlock
    split
    · simp [Action.readsArguments, Action.room?]
    · simp [Action.readsArguments, Action.room?]
    · next kind _ => cases kind.isPromise <;> simp [Action.readsArguments, Action.room?]
  exact hall a ha

namespace Model

/-- A signature looks at its own arguments only. -/
theorem fitsIn_of_mem_invoke (ha : a ∈ (m.invoke call).actions) :
    a.FitsIn call.arguments.length := by
  rcases mem_actions_invoke_cases ha with ⟨arg, c, index, hindex, ha⟩ | ⟨result, passed, ha⟩ | rfl
  · exact fitsIn_of_mem_argumentBlock hindex ha
  · obtain ⟨hreads, hroom⟩ := Invocation.not_readsArguments_of_mem_callBlock ha
    exact Action.fitsIn_of_not_readsArguments hreads hroom
  · exact Action.fitsIn_of_not_readsArguments rfl rfl

theorem not_readsArguments_of_mem_invoke (hcall : call.arguments = [])
    (ha : a ∈ (m.invoke call).actions) : a.readsArguments = false := by
  rcases mem_actions_invoke_cases ha with ⟨arg, c, index, hindex, _⟩ | ⟨result, passed, ha⟩ | rfl
  · simp [hcall] at hindex
  · exact (Invocation.not_readsArguments_of_mem_callBlock ha).1
  · rfl

theorem fitsIn_of_mem_pickedLadder {calls : List (Invocation × Nat)}
    (hcalls : ∀ call ∈ calls.map Prod.fst, call.arguments.length ≤ room)
    (ha : a ∈ (m.pickedLadder calls).actions) : a.FitsIn room := by
  induction calls with
  | nil => cases ha
  | cons call calls ih =>
      rw [List.map_cons, List.forall_mem_cons] at hcalls
      have hsplit : a ∈ (m.invoke call.1).actions ∨ a ∈ (m.pickedLadder calls).actions := by
        simpa [pickedLadder, Block.choice, Block.actions] using ha
      rcases hsplit with ha | ha
      · exact (fitsIn_of_mem_invoke ha).mono hcalls.1
      · exact ih hcalls.2 ha

/-- Several signatures are told apart by the arguments of the call. -/
theorem overloads_of_length_ne_one {calls : List Invocation} (hcalls : calls.length ≠ 1)
    (m : Model) (name : String) :
    m.overloads calls name =
      Block.ofActions [.pick (calls.map fun call => Candidate.ofArguments m call.arguments) name,
        .blank] ++ m.pickedLadder calls.zipIdx := by
  unfold overloads
  split
  · simp at hcalls
  · rfl

theorem fitsIn_of_mem_overloads {calls : List Invocation} {name : String}
    (hcalls : ∀ call ∈ calls, call.arguments.length ≤ room)
    (ha : a ∈ (m.overloads calls name).actions) : a.FitsIn room := by
  by_cases hlength : calls.length = 1
  · obtain ⟨call, rfl⟩ := List.length_eq_one_iff.mp hlength
    exact (fitsIn_of_mem_invoke ha).mono (hcalls call List.mem_cons_self)
  · rw [overloads_of_length_ne_one hlength, Block.actions_append, List.mem_append] at ha
    rcases ha with ha | ha
    · rw [Block.actions_ofActions, List.mem_cons, List.mem_singleton] at ha
      rcases ha with rfl | rfl
      · exact ⟨rfl, fun _ hindex => by cases hindex⟩
      · exact Action.fitsIn_of_not_readsArguments rfl rfl
    · exact fitsIn_of_mem_pickedLadder (by rwa [List.zipIdx_map_fst]) ha

end Model

/-! ## Lengths of signatures -/

theorem maxArity_le_iff {signatures : List (List Argument)} {n : Nat} :
    maxArity signatures ≤ n ↔ ∀ arguments ∈ signatures, arguments.length ≤ n := by
  have hfold : ∀ (signatures : List (List Argument)) (least : Nat),
      signatures.foldl (fun n arguments => max n arguments.length) least ≤ n ↔
        least ≤ n ∧ ∀ arguments ∈ signatures, arguments.length ≤ n := by
    intro signatures
    induction signatures with
    | nil => simp
    | cons arguments signatures ih =>
        intro least
        rw [List.foldl_cons, ih, Nat.max_le, List.forall_mem_cons, and_assoc]
  rw [maxArity, hfold]
  exact and_iff_right (Nat.zero_le n)

/-! ## Callbacks -/

namespace Interface

theorem fitsIn_of_mem_constructBlock
    (hroom : maxArity (i.constructors.map Constructor.arguments) ≤ room)
    (ha : a ∈ (i.constructBlock m).actions) : a.FitsIn room := by
  rw [constructBlock] at ha
  split at ha
  · rw [Block.actions_ofActions, List.mem_singleton] at ha
    subst ha
    exact Action.fitsIn_of_not_readsArguments rfl rfl
  · refine Model.fitsIn_of_mem_overloads ?_ ha
    intro call hcall
    obtain ⟨c, hc, rfl⟩ := List.mem_map.mp hcall
    exact maxArity_le_iff.mp hroom c.arguments (List.mem_map_of_mem hc)

/-- A constructor always has an array, since it may be given a native object. -/
theorem everywhere_constructorCallback (m : Model) (i : Interface) :
    (i.constructorCallback m).body.Everywhere
      (Place.IsInRoom (i.constructors.map fun c => c.arguments.length)) [] := by
  have hroom := Nat.le_max_left (maxArity (i.constructors.map Constructor.arguments)) 1
  have hfirst := Nat.lt_of_lt_of_le Nat.zero_lt_one
    (Nat.le_max_right (maxArity (i.constructors.map Constructor.arguments)) 1)
  have hbody : (i.constructorCallback m).body =
      Block.ofActions ([.checkConstruct i.name, .blank, .declareReceiver] ++
        .declareArguments (max (maxArity (i.constructors.map Constructor.arguments)) 1) ::
          [.readCall true true, .blank, .declareNative i.name, .takeExternal i.name]) ++
      (Block.choice .noNative
          (.act (.capArguments (maxArity (i.constructors.map Constructor.arguments)))
            (i.constructBlock m)) .done ++
        Block.ofActions [.blank, .wrap i.name i.slotCount, .returnValue .receiver]) := rfl
  rw [hbody]
  refine Block.everywhere_append_of_fitsIn _ _ ?_ ?_ ?_ ?_
  · intro n hn
    obtain ⟨c, hc, rfl⟩ := List.mem_map.mp hn
    exact maxArity_le_iff.mp hroom c.arguments (List.mem_map_of_mem hc)
  · simp [Action.readsArguments, Action.room?]
  · simp only [List.forall_mem_cons, List.not_mem_nil, false_implies, implies_true, and_true]
    refine ⟨.of_argument?_eq_none rfl rfl, .of_argument?_eq_none rfl rfl,
      .of_argument?_eq_none rfl rfl, rfl, ?_⟩
    rintro _ ⟨⟩
    exact hfirst
  · rw [Block.actions_append, List.forall_mem_append]
    refine ⟨?_, by simp [Action.FitsIn, Action.room?, Action.argument?]⟩
    simp only [Block.choice, Block.actions, List.append_nil, List.forall_mem_cons]
    exact ⟨.of_argument?_eq_none rfl rfl, fun a ha => fitsIn_of_mem_constructBlock hroom ha⟩

/-- Where there is room, an array is declared before anything is read. -/
theorem readArguments_of_ne_zero (hroom : room ≠ 0) (receiver : Bool) :
    readArguments room receiver =
      (if receiver then [.declareReceiver] else []) ++
        [.declareArguments room, .readCall true receiver, .capArguments room] := by
  rw [readArguments, if_neg hroom]

section Operations

variable {set : String × List Operation}

theorem fitsIn_of_mem_operationCalls {isStatic : Bool} {title : String}
    (hroom : maxArity (set.2.map Operation.arguments) ≤ room)
    (ha : a ∈ (m.overloads (set.2.map (i.operationCall isStatic title)) title).actions) :
    a.FitsIn room := by
  refine Model.fitsIn_of_mem_overloads ?_ ha
  intro call hcall
  obtain ⟨op, hop, rfl⟩ := List.mem_map.mp hcall
  exact maxArity_le_iff.mp hroom op.arguments (List.mem_map_of_mem hop)

/-- With an argument in some signature there is an array for all of them. -/
theorem everywhere_operationCallback_of_ne_zero
    (hroom : maxArity (set.2.map Operation.arguments) ≠ 0) :
    (i.operationCallback m set).body.Everywhere
      (Place.IsInRoom (set.2.map fun op => op.arguments.length)) [] := by
  have harities : ∀ n ∈ set.2.map fun op => op.arguments.length,
      n ≤ maxArity (set.2.map Operation.arguments) := by
    intro n hn
    obtain ⟨op, hop, rfl⟩ := List.mem_map.mp hn
    exact maxArity_le_iff.mp (Nat.le_refl _) op.arguments (List.mem_map_of_mem hop)
  have hcalls : ∀ a ∈ (m.overloads (set.2.map (i.operationCall (isStaticSet set.2)
      (i.name ++ "." ++ set.1))) (i.name ++ "." ++ set.1) ++
      Block.ofActions [.blank, .returnValue .result]).actions,
      a.FitsIn (maxArity (set.2.map Operation.arguments)) := by
    rw [Block.actions_append, List.forall_mem_append]
    exact ⟨fun a ha => fitsIn_of_mem_operationCalls (Nat.le_refl _) ha,
      by simp [Action.FitsIn, Action.room?, Action.argument?]⟩
  simp only [operationCallback, readArguments_of_ne_zero hroom]
  cases hstatic : isStaticSet set.2 with
  | true =>
      rw [hstatic] at hcalls
      refine Block.everywhere_append_of_fitsIn [.declareResult]
        [.readCall true false, .capArguments _, .blank] harities ?_ ?_ hcalls
      · simp [Action.readsArguments, Action.room?]
      · simp [Action.FitsIn, Action.room?, Action.argument?]
  | false =>
      rw [hstatic] at hcalls
      refine Block.everywhere_append_of_fitsIn [.declareResult, .declareReceiver]
        [.readCall true true, .capArguments _, .blank, .declareNative i.name, .unwrap i.name,
          .blank] harities ?_ ?_ hcalls
      · simp [Action.readsArguments, Action.room?]
      · simp [Action.FitsIn, Action.room?, Action.argument?]

/-- A single signature without arguments reads none. -/
theorem everywhere_operationCallback_of_singleton {op : Operation} (hset : set.2 = [op])
    (hop : op.arguments = []) :
    (i.operationCallback m set).body.Everywhere (Place.IsInRoom arities) [] := by
  refine Block.everywhere_of_not_readsArguments ?_
  have hcall : ∀ isStatic title, ∀ a ∈ (m.overloads [i.operationCall isStatic title op]
      title).actions, a.readsArguments = false :=
    fun isStatic title a ha => Model.not_readsArguments_of_mem_invoke hop ha
  simp only [operationCallback, hset, List.map_cons, List.map_nil, hop]
  rw [Block.actions_append, Block.actions_append, List.forall_mem_append, List.forall_mem_append]
  refine ⟨⟨?_, hcall _ _⟩, by simp [Action.readsArguments]⟩
  cases isStaticSet [op] <;>
    simp [readArguments, maxArity, unwrapReceiver, Action.readsArguments]

/-- Several signatures without arguments are picked from by arguments that are not declared. -/
theorem not_everywhere_operationCallback (hset : set.2.length ≠ 1)
    (hops : ∀ op ∈ set.2, op.arguments = []) :
    ¬(i.operationCallback m set).body.Everywhere (Place.IsInRoom arities) [] := by
  have hroom : maxArity (set.2.map Operation.arguments) = 0 := by
    rw [← Nat.le_zero, maxArity_le_iff]
    intro arguments harguments
    obtain ⟨op, hop, rfl⟩ := List.mem_map.mp harguments
    simp [hops op hop]
  have hlength : ∀ isStatic title,
      (set.2.map (i.operationCall isStatic title)).length ≠ 1 := by simpa using hset
  intro hbody
  simp only [operationCallback, hroom, readArguments, if_pos,
    Model.overloads_of_length_ne_one (hlength _ _), Block.append_eq, Block.everywhere_append,
    Block.outer_ofActions] at hbody
  obtain ⟨room, hscope, _⟩ := hbody.1.2.1.1 rfl
  cases hstatic : isStaticSet set.2 <;> rw [hstatic] at hscope <;> cases hscope

end Operations

theorem everywhere_setterCallback (m : Model) (i : Interface) (attr : Attribute) :
    (i.setterCallback m attr).body.Everywhere (Place.IsInRoom [1]) [] := by
  simp only [setterCallback]
  cases m.conversion? attr.type with
  | none => exact ⟨nofun, trivial⟩
  | some c =>
      simp only [setterActions, readArguments_of_ne_zero Nat.one_ne_zero, List.append_assoc,
        List.cons_append, List.nil_append]
      refine Block.everywhere_ofActions_of_fitsIn (by simp) ?_ ?_
      · cases attr.isStatic <;> simp [Action.readsArguments, Action.room?]
      · cases attr.isStatic <;> cases i.slot? attr.name <;>
          simp [unwrapReceiver, Action.FitsIn, Action.room?, Action.argument?]

end Interface

/-- **Arguments are read within their array, unless several signatures have none.** Every use of the
arguments in a constructor, in the callback of an operation and in a setter comes after one
declaration of an array, which has the place that is looked at and room for every signature. The
one exception is an operation with more than one signature where no signature has an argument: there
the signatures are picked from by arguments that are not declared. -/
theorem arguments_in_room_iff (m : Model) (i : Interface) :
    (i.constructorCallback m).body.Everywhere
      (Place.IsInRoom (i.constructors.map fun c => c.arguments.length)) [] ∧
    (∀ set ∈ i.overloadSets,
      ((i.operationCallback m set).body.Everywhere
        (Place.IsInRoom (set.2.map fun op => op.arguments.length)) [] ↔
        ¬(1 < set.2.length ∧ ∀ op ∈ set.2, op.arguments = []))) ∧
    ∀ attr, (i.setterCallback m attr).body.Everywhere (Place.IsInRoom [1]) [] := by
  refine ⟨i.everywhere_constructorCallback m, ?_, i.everywhere_setterCallback m⟩
  intro set hset
  constructor
  · rintro hbody ⟨hlength, hops⟩
    exact Interface.not_everywhere_operationCallback (Nat.ne_of_gt hlength) hops hbody
  · intro hexcept
    by_cases hroom : maxArity (set.2.map Operation.arguments) = 0
    · have hops : ∀ op ∈ set.2, op.arguments = [] := by
        intro op hop
        have hle := maxArity_le_iff.mp (Nat.le_of_eq hroom) op.arguments (List.mem_map_of_mem hop)
        exact List.eq_nil_of_length_eq_zero (Nat.le_zero.mp hle)
      have hpos := List.length_pos_of_ne_nil (Interface.ne_nil_of_mem_overloadSets hset)
      have hone : set.2.length = 1 := by
        have hle : ¬1 < set.2.length := fun hlt => hexcept ⟨hlt, hops⟩
        omega
      obtain ⟨op, hop⟩ := List.length_eq_one_iff.mp hone
      exact Interface.everywhere_operationCallback_of_singleton hop
        (hops op (hop ▸ List.mem_cons_self))
    · exact Interface.everywhere_operationCallback_of_ne_zero hroom

/-- A lamp that flashes once, or a number of times. -/
def countingLamp : Interface where
  name := "Lamp"
  members := [.operation ⟨"flash", [], none, false, []⟩,
    .operation ⟨"flash", [⟨"times", .named "long", false, false, none⟩], none, false, []⟩]

theorem arguments_in_room_iff_countingLamp :
    ("flash", countingLamp.operations) ∈ countingLamp.overloadSets ∧
      (countingLamp.operationCallback ⟨[countingLamp], [], [], []⟩
        ("flash", countingLamp.operations)).body.Everywhere (Place.IsInRoom [0, 1]) [] := by
  obtain ⟨_, hsets, _⟩ := arguments_in_room_iff ⟨[countingLamp], [], [], []⟩ countingLamp
  have hset : ("flash", countingLamp.operations) ∈ countingLamp.overloadSets := by decide
  exact ⟨hset, (hsets _ hset).mpr (by decide)⟩

/-- A lamp whose only operation is written twice. -/
def twiceLamp : Interface where
  name := "Lamp"
  members := [.operation ⟨"flash", [], none, false, []⟩,
    .operation ⟨"flash", [], none, false, []⟩]

/-- Nothing forbids two signatures without arguments. Their callback picks one by the arguments of
the call, and declares no array for them. -/
theorem picks_without_room_twiceLamp :
    (∃ warnings, Model.check ⟨[twiceLamp], [], [], []⟩ = .ok warnings) ∧
      ("flash", twiceLamp.operations) ∈ twiceLamp.overloadSets ∧
      ¬(twiceLamp.operationCallback ⟨[twiceLamp], [], [], []⟩
        ("flash", twiceLamp.operations)).body.Everywhere (Place.IsInRoom [0, 0]) [] ∧
      (twiceLamp.operationCallback ⟨[twiceLamp], [], [], []⟩
        ("flash", twiceLamp.operations)).body.actions.filter Action.readsArguments =
          [.pick [⟨[], 0⟩, ⟨[], 0⟩] "Lamp.flash"] ∧
      (twiceLamp.operationCallback ⟨[twiceLamp], [], [], []⟩
        ("flash", twiceLamp.operations)).body.actions.filterMap Action.room? = [] :=
  ⟨⟨_, rfl⟩, by decide,
    Interface.not_everywhere_operationCallback (by decide) (by decide), rfl, by decide⟩

end IdlBindings
