import IdlBindings.Proofs.Binding.Runs
import IdlBindings.Proofs.Model.Resolution

/-!
# Promises that are settled

A promise that a native function returns is attached to one of the host when it is converted. If it
has its result by then, it takes a further step to settle it, which only promises need. The step is
there in every branch of a call and in every getter whose type is written as a promise. A type that
is an alias of a promise resolves to the alias, so nothing settles what it returns.
-/
namespace IdlBindings

variable {m : Model} {t : IdlType} {kind : TypeKind} {value : NativeValue}

/-- A type resolves to a promise exactly if it is written as one. -/
theorem isPromise_iff_of_resolve? (h : m.resolve? t = some kind) :
    kind.isPromise = true ↔ ∃ inner, t = .generic "Promise" inner := by
  match t with
  | .named n =>
      obtain ⟨nameKind, _, rfl⟩ := Option.map_eq_some_iff.mp h
      simp [TypeKind.isPromise]
  | .generic wrapper (.named inner) =>
      obtain ⟨w, nameKind, rfl, _, rfl⟩ := Model.nameKind?_of_genericKind? h
      cases w <;> simp [TypeKind.isPromise, Wrapper.name]
  | .generic wrapper (.generic _ _) => simp [Model.resolve?] at h

/-! ## Calls -/

namespace Invocation

variable {call : Invocation} {passed : Nat}

/-- The steps of a call for a result: the call, the conversion, and the settling of a promise. -/
theorem callBlock_some (hcallee : ∀ owner, call.callee ≠ .constructor owner) :
    call.callBlock (some kind) passed =
      Block.ofActions ([.callFor kind.conversion.native call.callee passed,
        .toJs kind.conversion.converter .result] ++
        if kind.isPromise then [.finalize .result] else []) := by
  unfold callBlock
  cases hc : call.callee with
  | constructor owner => exact absurd hc (hcallee owner)
  | static owner name => rfl
  | method name => rfl

/-- A call settles nothing unless its result is a promise. -/
theorem finalize_notMem_callBlock {result : Option TypeKind}
    (hresult : ∀ kind, result = some kind → kind.isPromise = false) :
    .finalize value ∉ (call.callBlock result passed).actions := by
  unfold callBlock
  split
  · simp
  · simp
  · next kind _ => simp [hresult kind rfl]

end Invocation

/-! ## Getters -/

namespace Interface

variable {i : Interface} {a : Attribute}

theorem finalize_notMem_readArguments (room : Nat) (receiver : Bool) :
    .finalize value ∉ readArguments room receiver := by
  rw [readArguments]
  cases receiver <;> by_cases hroom : room = 0 <;> simp [hroom]

/-- The steps of a getter around the conversion settle nothing. -/
theorem getterActions_split (i : Interface) (a : Attribute) (kind : TypeKind) :
    ∃ before after, (∀ value, .finalize value ∉ before ∧ .finalize value ∉ after) ∧
      i.getterActions a kind = before ++ [.toJs kind.conversion.converter (i.attributeValue a)] ++
        (if kind.isPromise then [.finalize (i.attributeValue a)] else []) ++ after := by
  refine ⟨[.declareResult] ++ (if a.isStatic then []
      else readArguments 0 true ++ .blank :: unwrapReceiver i.name ++ [.blank]) ++
    (i.slot? a.name).toList.flatMap (fun s => [.loadSlot s, .blank]),
    (i.slot? a.name).toList.map .storeSlot ++ [.returnValue .result], ?_, ?_⟩
  · intro value
    cases a.isStatic <;> cases i.slot? a.name <;>
      simp [finalize_notMem_readArguments, unwrapReceiver]
  · simp [getterActions]

end Interface

/-! ## Promises -/

/-- **Promises are settled where they are written as promises.** Every run of the code for a
supported operation that returns one ends with the call, the conversion of its result and the
settling of it, and the getter of a supported attribute settles its value right after converting it.
For every other type, an alias of a promise included, nothing is settled anywhere. -/
theorem promise_settled_iff_written (m : Model) (i : Interface) :
    (∀ isStatic title (op : Operation), (i.operationCall isStatic title op).IsSupported m →
      ((∃ inner, op.result = some (.generic "Promise" inner)) →
        ∀ holds, ∃ before native callee passed converter,
          (m.invoke (i.operationCall isStatic title op)).run holds =
            before ++ [.callFor native callee passed, .toJs converter .result,
              .finalize .result]) ∧
      ((¬∃ inner, op.result = some (.generic "Promise" inner)) →
        ∀ value, .finalize value ∉ (m.invoke (i.operationCall isStatic title op)).actions)) ∧
    ∀ a : Attribute, (m.resolve? a.type).isSome = true →
      ((∃ inner, a.type = .generic "Promise" inner) →
        ∃ before converter after, (i.getterCallback m a).body.actions =
          before ++ [.toJs converter (i.attributeValue a), .finalize (i.attributeValue a)] ++
            after) ∧
      ((¬∃ inner, a.type = .generic "Promise" inner) →
        ∀ value, .finalize value ∉ (i.getterCallback m a).body.actions) := by
  refine ⟨?_, ?_⟩
  · intro isStatic title op hsupported
    have hcallee : ∀ owner, (i.operationCall isStatic title op).callee ≠ .constructor owner := by
      intro owner
      cases isStatic <;> simp [Interface.operationCall]
    refine ⟨?_, ?_⟩
    · rintro ⟨inner, hresult⟩ holds
      obtain ⟨kind, hkind⟩ := Option.isSome_iff_exists.mp (hsupported.result _ hresult)
      have hpromise := (isPromise_iff_of_resolve? hkind).mpr ⟨inner, rfl⟩
      obtain ⟨before, passed, _, hrun⟩ := Model.exists_run_invoke hsupported holds
      have hbound : (i.operationCall isStatic title op).result.bind m.resolve? = some kind := by
        simp [Interface.operationCall, hresult, hkind]
      rw [hbound, Invocation.callBlock_some hcallee, Block.run_ofActions, if_pos hpromise] at hrun
      exact ⟨before, _, _, _, _, hrun⟩
    · intro hresult value hmem
      rcases Model.mem_actions_invoke hsupported hmem with hstep | ⟨passed, hcall⟩
      · cases hstep
      · refine Invocation.finalize_notMem_callBlock ?_ hcall
        intro kind hkind
        obtain ⟨t, ht, hresolve⟩ := Option.bind_eq_some_iff.mp hkind
        rw [Bool.eq_false_iff, ne_eq, isPromise_iff_of_resolve? hresolve]
        rintro ⟨inner, rfl⟩
        exact hresult ⟨inner, ht⟩
  · intro a hsupported
    obtain ⟨kind, hkind⟩ := Option.isSome_iff_exists.mp hsupported
    obtain ⟨before, after, hquiet, hactions⟩ := i.getterActions_split a kind
    have hbody : (i.getterCallback m a).body.actions = i.getterActions a kind := by
      simp [Interface.getterCallback, hkind]
    rw [hbody, hactions, ← isPromise_iff_of_resolve? hkind]
    refine ⟨?_, ?_⟩
    · intro hpromise
      exact ⟨before, kind.conversion.converter, after, by simp [hpromise]⟩
    · intro hpromise value
      simp [hpromise, hquiet value]

/-! ## An alias of a promise -/

/-- Returns a promise, also if its argument is left out. -/
def startJob : Operation :=
  ⟨"start", [⟨"delay", .named "long", true, false, none⟩],
    some (.generic "Promise" (.named "Job")), false, []⟩

/-- Returns a promise under an alias. -/
def stopJob : Operation := ⟨"stop", [], some (.named "Ending"), false, []⟩

def jobEnding : Attribute := ⟨"ending", .named "Ending", true, false, []⟩

def job : Interface :=
  ⟨"Job", [.operation startJob, .operation stopJob, .attribute jobEnding]⟩

/-- Jobs, with two aliases on the way to the promise of one. -/
def deferring : Model where
  interfaces := [job]
  dictionaries := []
  enums := []
  typedefs := [⟨"Later", .generic "Promise" (.named "Job")⟩, ⟨"Ending", .named "Later"⟩]

theorem isSupported_startJob :
    (job.operationCall false "Job.start" startJob).IsSupported deferring where
  arguments := by
    intro a ha
    obtain rfl := List.mem_singleton.mp ha
    exact ⟨rfl, by decide⟩
  result := by
    rintro t ⟨⟩
    decide

theorem isSupported_stopJob :
    (job.operationCall false "Job.stop" stopJob).IsSupported deferring where
  arguments := by
    intro a ha
    cases ha
  result := by
    rintro t ⟨⟩
    decide

theorem promise_settled_iff_written_job :
    (∀ holds, ∃ before native callee passed converter,
      (deferring.invoke (job.operationCall false "Job.start" startJob)).run holds =
        before ++ [.callFor native callee passed, .toJs converter .result, .finalize .result]) ∧
    ∀ value, .finalize value ∉
      (deferring.invoke (job.operationCall false "Job.stop" stopJob)).actions := by
  obtain ⟨hoperation, _⟩ := promise_settled_iff_written deferring job
  refine ⟨(hoperation _ _ _ isSupported_startJob).1 ⟨_, rfl⟩,
    (hoperation _ _ _ isSupported_stopJob).2 ?_⟩
  rintro ⟨inner, ⟨⟩⟩

/-- The aliases lead to a promise and are supported, but the call has no step that settles its
result, and neither has the getter. -/
theorem promise_alias_not_settled :
    deferring.Chain (.named "Ending") ["Ending", "Later"] (.generic "Promise" (.named "Job")) ∧
      stopJob.result = some (.named "Ending") ∧ jobEnding.type = .named "Ending" ∧
      (job.operationCall false "Job.stop" stopJob).IsSupported deferring ∧
      (deferring.resolve? jobEnding.type).isSome = true ∧
      (∀ holds, (deferring.invoke (job.operationCall false "Job.stop" stopJob)).run holds =
        [.callFor "Ending" (.method "stop") 0, .toJs (.ofAlias "Ending") .result]) ∧
      (job.getterCallback deferring jobEnding).body.actions =
        [.declareResult, .declareReceiver, .readCall false true, .blank, .declareNative "Job",
          .unwrap "Job", .blank, .toJs (.ofAlias "Ending") (.member "ending"),
          .returnValue .result] :=
  ⟨.link rfl (.link rfl (.generic _ _)), rfl, rfl, isSupported_stopJob, by decide,
    fun _ => rfl, rfl⟩

end IdlBindings
