import IdlBindings.Proofs.Binding.StaticDispatch
import IdlBindings.Proofs.Model.DeclarationOrder

/-!
# Candidates in the order of declaration

A callback for several operations has a table of their signatures, and a branch for each index of
the table. Table and branches are both made from the set of a name, whose indices are the ranks of
operations among the members. So the first signature that accepts a call is the one declared first
among all operations of the name that accept it, and its branch is the code for that operation.

## Main definitions

* `Block.tables`: the tables that a block picks signatures from
* `Interface.acceptingPlaces`: where operations are declared that accept a call
* `Interface.DispatchesInOrder`: a callback goes by the order of declaration
-/
namespace IdlBindings

/-- The table that a step picks a signature from, and how failures name it. -/
def Action.table? : Action → Option (List Candidate × String)
  | pick candidates name => some (candidates, name)
  | _ => none

/-- The signatures of operations, as a table has them. -/
def operationCandidates (m : Model) (ops : List Operation) : List Candidate :=
  ops.map fun o => Candidate.ofArguments m o.arguments

namespace Interface

/-- The places among the members with an operation of a name that accepts a call. -/
def acceptingPlaces (m : Model) (i : Interface) (name : String) (call : List ValueCategory) :
    Set Nat :=
  {place | ∃ o, i.DeclaresAt name place o ∧
    (Candidate.ofArguments m o.arguments).accepts call = true}

end Interface

namespace Block

/-- The tables that a block picks signatures from, in the order of the text. -/
def tables (b : Block) : List (List Candidate × String) := b.actions.filterMap Action.table?

@[simp] theorem tables_append (a b : Block) : (a.append b).tables = a.tables ++ b.tables := by
  rw [tables, ← append_eq, actions_append, List.filterMap_append]
  rfl

@[simp] theorem tables_ofActions (as : List Action) :
    (ofActions as).tables = as.filterMap Action.table? := by
  rw [tables, actions_ofActions]

@[simp] theorem tables_choice (test : Test) (yes no : Block) :
    (choice test yes no).tables = yes.tables ++ no.tables := by
  simp [tables, choice, actions]

end Block

/-- The callback of a set goes by the order in which its operations are declared. Where there are
several, it has one table, with their signatures. The one that is picked for a call has the rank of
the first place with an operation of the name that accepts the call. A run is then the code for the
operation with that index, in a frame that is the same for all and calls nothing itself. -/
structure Interface.DispatchesInOrder (m : Model) (i : Interface)
    (set : String × List Operation) : Prop where
  table : (i.operationCallback m set).body.tables =
    if 1 < set.2.length then [(operationCandidates m set.2, i.name ++ "." ++ set.1)] else []
  picked : ∀ call index, pick? (operationCandidates m set.2) call = some index ↔
    ∃ place, IsLeast (i.acceptingPlaces m set.1 call) place ∧ i.rank set.1 place = index
  branch : ∃ before after : List Action, (before ++ after).filterMap Action.call? = [] ∧
    ∀ index o, set.2[index]? = some o → ∀ holds, PicksAt holds index →
      (i.operationCallback m set).body.run holds = before ++ (m.invoke
        (i.operationCall (isStaticSet set.2) (i.name ++ "." ++ set.1) o)).run holds ++ after

variable {m : Model} {i : Interface} {o : Operation} {set : String × List Operation} {index : Nat}

/-! ## Tables -/

theorem Action.table?_of_isArgumentStep {a : Action} (ha : a.isArgumentStep = true) :
    a.table? = none := by
  cases a with
  | declareValue | findArgument | toNative => rfl
  | _ => cases ha

theorem Invocation.tables_callBlock (call : Invocation) (result : Option TypeKind)
    (passed : Nat) : (call.callBlock result passed).tables = [] := by
  unfold callBlock
  split
  · rfl
  · rfl
  · next kind _ => cases kind.isPromise <;> rfl

namespace Model

/-- The code of one signature has no table. -/
@[simp] theorem tables_invoke (m : Model) (call : Invocation) : (m.invoke call).tables = [] := by
  rw [Block.tables, List.filterMap_eq_nil_iff]
  intro a ha
  rcases mem_actions_invoke_cases ha with ⟨arg, c, index, _, ha⟩ | ⟨result, passed, ha⟩ | rfl
  · exact Action.table?_of_isArgumentStep (isArgumentStep_of_mem_argumentBlock ha)
  · exact List.filterMap_eq_nil_iff.mp (call.tables_callBlock result passed) a ha
  · rfl

theorem tables_pickedLadder (m : Model) (calls : List (Invocation × Nat)) :
    (m.pickedLadder calls).tables = [] := by
  induction calls with
  | nil => rfl
  | cons call calls ih => simp [pickedLadder, ih]

theorem tables_overloads (m : Model) (calls : List Invocation) (name : String) :
    (m.overloads calls name).tables = if calls.length = 1 then []
      else [(calls.map fun call => Candidate.ofArguments m call.arguments, name)] := by
  split
  · next hlength =>
      obtain ⟨call, rfl⟩ := List.length_eq_one_iff.mp hlength
      exact m.tables_invoke call
  · next hlength =>
      rw [overloads_of_length_ne_one hlength, Block.append_eq, Block.tables_append,
        tables_pickedLadder, Block.tables_ofActions]
      rfl

end Model

namespace Interface

theorem filterMap_table?_readArguments (room : Nat) (receiver : Bool) :
    (readArguments room receiver).filterMap Action.table? = [] := by
  by_cases hroom : room = 0 <;> cases receiver <;> simp [readArguments, hroom, Action.table?]

/-- The frame of a callback has no table. -/
theorem tables_operationCallback (m : Model) (i : Interface) (set : String × List Operation) :
    (i.operationCallback m set).body.tables = if set.2.length = 1 then []
      else [(operationCandidates m set.2, i.name ++ "." ++ set.1)] := by
  have hsignatures : (m.overloads
      (set.2.map (i.operationCall (isStaticSet set.2) (i.name ++ "." ++ set.1)))
      (i.name ++ "." ++ set.1)).tables = if set.2.length = 1 then []
        else [(operationCandidates m set.2, i.name ++ "." ++ set.1)] := by
    rw [Model.tables_overloads, List.length_map, List.map_map]
    rfl
  cases hstatic : isStaticSet set.2 <;> rw [hstatic] at hsignatures <;>
    simp [operationCallback, hstatic, hsignatures, filterMap_table?_readArguments, unwrapReceiver,
      List.filterMap_cons, Action.table?]

/-! ## Picking -/

/-- The signature that is picked is that of the operation declared first among those that accept the
call. -/
theorem pick?_eq_some_iff (hset : set ∈ i.overloadSets) (call : List ValueCategory) :
    pick? (operationCandidates m set.2) call = some index ↔
      ∃ place, IsLeast (i.acceptingPlaces m set.1 call) place ∧ i.rank set.1 place = index := by
  rw [pick?, operationCandidates, List.findIdx?_map, List.findIdx?_eq_some_iff_getElem]
  constructor
  · rintro ⟨hindex, haccepts, hfirst⟩
    obtain ⟨place, ho, rfl⟩ :=
      (getElem?_overloadSet_iff hset).mp (List.getElem?_eq_getElem hindex)
    refine ⟨place, ⟨⟨_, ho, haccepts⟩, ?_⟩, rfl⟩
    rintro place' ⟨o', ho', haccepts'⟩
    -- An operation at an earlier place would have a lower index, and be picked before.
    by_contra hlt
    have hrank := rank_lt_rank ho' (Nat.lt_of_not_le hlt)
    obtain ⟨_, hget⟩ := List.getElem?_eq_some_iff.mp
      ((getElem?_overloadSet_iff hset).mpr ⟨place', ho', rfl⟩)
    refine hfirst _ hrank ?_
    rw [hget]
    exact haccepts'
  · rintro ⟨place, ⟨⟨o, ho, haccepts⟩, hleast⟩, rfl⟩
    obtain ⟨hindex, hget⟩ := List.getElem?_eq_some_iff.mp
      ((getElem?_overloadSet_iff hset).mpr ⟨place, ho, rfl⟩)
    refine ⟨hindex, by rw [hget]; exact haccepts, fun j hj haccepts' => ?_⟩
    obtain ⟨place', ho', hrank⟩ := (getElem?_overloadSet_iff hset).mp
      (List.getElem?_eq_getElem (Nat.lt_trans hj hindex))
    have hle := i.rank_le_rank set.1 (hleast ⟨_, ho', haccepts'⟩)
    omega

/-! ## Branches -/

/-- The steps of a callback before the code for its signatures. -/
def operationPrologue (i : Interface) (set : String × List Operation) : List Action :=
  .declareResult :: readArguments (maxArity (set.2.map Operation.arguments)) (!isStaticSet set.2) ++
    (if isStaticSet set.2 then [] else .blank :: unwrapReceiver i.name) ++ [.blank]

theorem filterMap_operationPrologue (i : Interface) (set : String × List Operation) :
    (i.operationPrologue set).filterMap Action.call? = [] := by
  rw [operationPrologue]
  cases isStaticSet set.2 <;>
    simp [filterMap_readArguments, unwrapReceiver, List.filterMap_cons, Action.call?]

theorem exists_run_operationCallback (m : Model) (i : Interface) (set : String × List Operation) :
    ∃ before after : List Action, (before ++ after).filterMap Action.call? = [] ∧
      ∀ index o, set.2[index]? = some o → ∀ holds, PicksAt holds index →
        (i.operationCallback m set).body.run holds = before ++ (m.invoke
          (i.operationCall (isStaticSet set.2) (i.name ++ "." ++ set.1) o)).run holds ++ after := by
  obtain ⟨search, hcalls, hsearch⟩ := m.exists_run_overloads
    (set.2.map (i.operationCall (isStaticSet set.2) (i.name ++ "." ++ set.1)))
    (i.name ++ "." ++ set.1)
  refine ⟨i.operationPrologue set ++ search, [.blank, .returnValue .result], ?_,
    fun index o ho holds hpicks => ?_⟩
  · rw [List.filterMap_append, List.filterMap_append, filterMap_operationPrologue, hcalls]
    rfl
  · have hcall : (set.2.map
        (i.operationCall (isStaticSet set.2) (i.name ++ "." ++ set.1)))[index]? =
          some (i.operationCall (isStaticSet set.2) (i.name ++ "." ++ set.1) o) := by
      rw [List.getElem?_map, ho]
      rfl
    simp only [operationCallback, operationPrologue, Block.append_eq, Block.run_append,
      Block.run_ofActions, hsearch index _ hcall holds hpicks, ← List.append_assoc]

theorem dispatchesInOrder_of_mem_overloadSets (hset : set ∈ i.overloadSets) :
    i.DispatchesInOrder m set where
  table := by
    have hpos := List.length_pos_of_ne_nil (ne_nil_of_mem_overloadSets hset)
    rw [tables_operationCallback]
    by_cases hone : set.2.length = 1
    · rw [if_pos hone, if_neg (by omega)]
    · rw [if_neg hone, if_pos (by omega)]
  picked := fun call _ => pick?_eq_some_iff hset call
  branch := i.exists_run_operationCallback m set

end Interface

/-- **Operations are grouped stably, and dispatched in the order of declaration.** The sets of an
interface are the one way to have each name of an operation once, in the order of first places, each
with all operations of that name in the order of the members. Together they have the operations of
the interface, and each operation is in one set only. Ranks grow with places, and the index of an
operation in its set is the rank at its place. Every set has a callback, and for a call it goes to
the operation that is declared first among those of the name that accept it. -/
theorem overloads_grouped_stably (m : Model) (i : Interface) :
    (∀ sets, i.GroupsStably sets ↔ sets = i.overloadSets) ∧
      (i.overloadSets.flatMap Prod.snd).Perm i.operations ∧
      (∀ o ∈ i.operations, ∃! set, set ∈ i.overloadSets ∧ o ∈ set.2) ∧
      (∀ name place o, i.DeclaresAt name place o →
        ∀ place', place < place' → i.rank name place < i.rank name place') ∧
      ∀ set ∈ i.overloadSets,
        (∀ index o, set.2[index]? = some o ↔
          ∃ place, i.DeclaresAt set.1 place o ∧ i.rank set.1 place = index) ∧
        i.operationCallback m set ∈ i.callbacks m ∧ i.DispatchesInOrder m set := by
  refine ⟨fun sets => Interface.groupsStably_iff, i.flatMap_overloadSets_perm,
    fun o => Interface.existsUnique_overloadSet,
    fun name place o ho place' => Interface.rank_lt_rank ho, fun set hset => ?_⟩
  exact ⟨fun index o => Interface.getElem?_overloadSet_iff hset,
    Interface.mem_callbacks_iff.mpr (.inr (.inl ⟨set, hset, rfl⟩)),
    Interface.dispatchesInOrder_of_mem_overloadSets hset⟩

/-- Flashes a number of times. -/
def flashTimes : Operation :=
  ⟨"flash", [⟨"times", .named "long", false, false, none⟩], none, false, []⟩

def flashOnce : Operation := ⟨"flash", [], none, false, []⟩

def dimLight : Operation := ⟨"dim", [], none, false, []⟩

/-- A lamp that flashes in two ways, with other members in between. -/
def flashingLamp : Interface where
  name := "Lamp"
  members := [.operation flashTimes, .attribute ⟨"color", .named "DOMString", true, false, []⟩,
    .operation dimLight, .operation flashOnce]

/-- A call without arguments goes to the last member, which has the second index of its set. -/
theorem overloads_grouped_stably_flashingLamp :
    flashingLamp.GroupsStably [("flash", [flashTimes, flashOnce]), ("dim", [dimLight])] ∧
      flashingLamp.DeclaresAt "flash" 3 flashOnce ∧ flashingLamp.rank "flash" 3 = 1 ∧
      IsLeast (flashingLamp.acceptingPlaces ⟨[], [], [], []⟩ "flash" []) 3 := by
  obtain ⟨hsets, _, _, hranks, hdispatch⟩ :=
    overloads_grouped_stably ⟨[], [], [], []⟩ flashingLamp
  have hset : ("flash", [flashTimes, flashOnce]) ∈ flashingLamp.overloadSets := by decide
  have hplace : flashingLamp.DeclaresAt "flash" 3 flashOnce := ⟨rfl, rfl⟩
  have hrank : flashingLamp.rank "flash" 3 = 1 := by decide
  refine ⟨(hsets _).mpr (by decide), hplace, hrank, ?_⟩
  obtain ⟨_, _, hcallback⟩ := hdispatch _ hset
  obtain ⟨place, hleast, hindex⟩ :
      ∃ place, IsLeast (flashingLamp.acceptingPlaces ⟨[], [], [], []⟩ "flash" []) place ∧
        flashingLamp.rank "flash" place = 1 := (hcallback.picked [] 1).mp (by decide)
  obtain ⟨o, ho, _⟩ := hleast.1
  -- No other operation of the name has the same rank.
  have hbefore := hranks "flash" place o ho 3
  have hbehind := hranks "flash" 3 flashOnce hplace place
  obtain rfl : place = 3 := by omega
  exact hleast

end IdlBindings
