import IdlBindings.Proofs.Binding.Passing
import IdlBindings.Proofs.Model.Resolution
import Mathlib.Order.Bounds.Basic

/-!
# Arguments under an alias

An argument may be written with an alias of its type. Where a type is only converted this makes no
difference. Two places look at the kind of the type itself, and an alias is a kind of its own there:
an optional dictionary is passed in any case, an optional alias of one only if it is present; and a
quoted default becomes a text or an enumerator, which for an alias of either is lost. The two
conditions below are exact: in every other case the code passes the same arguments and starts from
the same values.

## Main definitions

* `Model.Renames`: an alias is another name of a type
* `Invocation.withType`: a signature with another type for one argument
* `Block.starts`: the values that the variables of arguments start with
-/
namespace IdlBindings

/-- The name is an alias of the type: following aliases from it ends in that type, and nothing else
has the name. -/
structure Model.Renames (m : Model) (n : String) (x : IdlType) : Prop where
  chain : ∃ ns, m.Chain (.named n) (n :: ns) x
  alone : ¬m.IsKnown n

/-- The signature with another type for the argument at an index. -/
def Invocation.withType (call : Invocation) (i : Nat) (x : IdlType) : Invocation :=
  { call with arguments := call.arguments.modify i fun a => { a with type := x } }

/-- What the variable of an argument starts with, and the index of the argument. -/
def Action.start? : Action → Option (Initializer × Nat)
  | declareValue _ (.argument i) start => some (start, i)
  | _ => none

/-- What the variables of arguments start with, in order. -/
def Block.starts (b : Block) : List (Initializer × Nat) := b.actions.filterMap Action.start?

variable {m : Model} {call call' : Invocation} {x : IdlType} {n : String} {a : Argument}

/-! ## Kinds of aliases -/

namespace Model

theorem isBoundEnd_of_chain {ns : List String} {y : IdlType} (hchain : m.Chain y ns x)
    (hx : (m.resolve? x).isSome = true) : m.IsBoundEnd x := by
  match x with
  | .named n =>
      rw [resolve?, Option.isSome_map, nameKind?_isSome_iff] at hx
      rcases hx with hknown | ⟨t, hsome, _⟩
      · exact hknown
      · simp [hchain.typedef?_eq_none] at hsome
  | .generic wrapper (.named inner) => exact hx
  | .generic wrapper (.generic _ _) => cases hx

/-- An alias of a type with bindings resolves to itself. -/
theorem Renames.exists_resolve? (h : m.Renames n x) (hx : (m.resolve? x).isSome = true) :
    ∃ t basic, m.resolve? (.named n) = some (.name (.typedef t basic)) := by
  obtain ⟨ns, hchain⟩ := h.chain
  cases hchain with
  | link hsome hrest =>
      have hbound : (m.nameKind? m.isBoundAlias n).isSome = true := by
        rw [nameKind?_isSome_iff]
        refine .inr ⟨_, hsome, .inr (isBoundAlias_iff.mpr ⟨ns, x, hrest, ?_⟩)⟩
        exact isBoundEnd_of_chain hrest hx
      obtain ⟨kind, hkind⟩ := Option.isSome_iff_exists.mp hbound
      rcases isKnown_or_typedef_of_kindOf (kindOf_of_nameKind? hkind) with
        hknown | ⟨t, basic, rfl, _⟩
      · exact absurd hknown h.alone
      · exact ⟨t, basic, by rw [resolve?, hkind, Option.map_some]⟩

end Model

/-! ## Values to start with -/

/-- A call declares no variable for an argument. -/
theorem Invocation.starts_callBlock (result : Option TypeKind) (passed : Nat) :
    (call.callBlock result passed).starts = [] := by
  unfold callBlock Block.starts
  split
  · simp [Action.start?]
  · simp [Action.start?]
  · next kind _ => cases kind.isPromise <;> simp [Action.start?]

theorem Model.starts_argumentBlock (m : Model) (a : Argument) (c : Conversion) (i : Nat) :
    (m.argumentBlock a c i).starts = [(m.initializer a, i)] := by
  rw [argumentBlock, Block.starts]
  cases a.optional <;>
    simp [Block.actions, Block.choice, Block.ofActions, Action.start?]

/-- The code of a supported signature declares a variable for each argument, in order. -/
theorem Model.starts_invoke (h : call.IsSupported m) :
    (m.invoke call).starts = (call.arguments.map m.initializer).zipIdx := by
  obtain ⟨bound, hbound, heq⟩ := exists_invoke_eq h
  -- The calls come after all arguments, and start nothing.
  have hladder : ∀ least more, (ladder (call.callBlock (call.result.bind m.resolve?))
      least more).actions.filterMap Action.start? = [] := by
    intro least more
    rw [List.filterMap_eq_nil_iff]
    intro a ha
    obtain ⟨passed, ha⟩ := Block.exists_mem_actions_of_ladder ha
    exact List.filterMap_eq_nil_iff.mp (call.starts_callBlock _ passed) a ha
  have hblocks : (m.argumentBlocks bound).flatMap Block.starts =
      bound.zipIdx.map fun pair => (m.initializer pair.1.1, pair.2) := by
    rw [argumentBlocks, List.flatMap_map, List.map_eq_flatMap]
    exact List.flatMap_congr fun pair _ => m.starts_argumentBlock pair.1.1 pair.1.2 pair.2
  have hfilter : ((m.argumentBlocks bound).flatMap Block.actions).filterMap Action.start? =
      (m.argumentBlocks bound).flatMap Block.starts := List.filterMap_flatMap ..
  rw [Block.starts, heq, Block.actions_foldr_append, List.filterMap_append, hladder,
    List.append_nil, hfilter, hblocks, ← hbound, List.map_map, List.zipIdx_map]
  rfl

namespace Model

theorem defaultInitializer_of_quoted {text : String} (htext : text.toList.head? = some '"') :
    m.defaultInitializer x text = m.quotedInitializer x (trimQuotes text) := by
  have hne : ∀ other : String, other.toList.head? ≠ some '"' → text ≠ other := by
    rintro _ hother rfl
    exact hother htext
  rw [defaultInitializer, if_neg, if_neg (hne _ (by decide)), if_neg (hne _ (by decide)),
    if_neg (hne _ (by decide)), if_pos htext]
  rintro (heq | heq | heq) <;> exact hne _ (by decide) heq

/-- Only quoted defaults depend on the type. -/
theorem defaultInitializer_congr {y : IdlType} {text : String}
    (htext : text.toList.head? ≠ some '"') :
    m.defaultInitializer x text = m.defaultInitializer y text := by
  simp only [defaultInitializer, if_neg htext]

theorem quotedInitializer_eq_zero_iff {value : String} :
    m.quotedInitializer x value = .zero ↔
      (∀ s, m.resolve? x ≠ some (.name (.scalar s))) ∧
        ∀ e, m.resolve? x = some (.name (.enumeration e)) → ∀ v ∈ e.values, v.literal ≠ value := by
  rw [quotedInitializer]
  split
  · next s hs => simp [hs]
  · next e he =>
      split
      · next v hv =>
          have hliteral : v.literal = value := by simpa using List.find?_some hv
          simpa [he] using ⟨v, List.mem_of_find?_eq_some hv, hliteral⟩
      · next hnone => simpa [he] using hnone
  · next hscalar henum =>
      refine iff_of_true rfl ⟨fun s hs => hscalar s hs, fun e he => absurd he (henum e)⟩

/-- An alias takes a value from its default unless that is quoted. -/
theorem initializer_eq_iff {t : Typedef} {basic : Option Scalar}
    (hn : m.resolve? (.named n) = some (.name (.typedef t basic))) :
    m.initializer { a with type := .named n } = m.initializer a ↔
      ∀ text, a.default = some text → text.toList.head? = some '"' →
        (∀ s, m.resolve? a.type ≠ some (.name (.scalar s))) ∧
          ∀ e, m.resolve? a.type = some (.name (.enumeration e)) →
            ∀ v ∈ e.values, v.literal ≠ trimQuotes text := by
  rw [initializer, initializer]
  cases hdefault : a.default with
  | none => simp
  | some text =>
      by_cases htext : text.toList.head? = some '"'
      · have hzero : m.quotedInitializer (.named n) (trimQuotes text) = .zero := by
          rw [quotedInitializer, hn]
        simp only [defaultInitializer_of_quoted htext, hzero, Option.some.injEq, forall_eq',
          htext, forall_const]
        rw [eq_comm, quotedInitializer_eq_zero_iff]
      · simp only [defaultInitializer_congr htext (y := a.type), Option.some.injEq, forall_eq',
          htext, IsEmpty.forall_iff]

/-! ## Arguments that are always passed -/

theorem alwaysPassed_append (xs ys : List Argument) :
    m.alwaysPassed (xs ++ ys) =
      if ∃ b ∈ ys, m.isAlwaysPassed b = true then xs.length + m.alwaysPassed ys
      else m.alwaysPassed xs := by
  induction ys using List.reverseRecOn with
  | nil => simp
  | append_singleton ys b ih =>
      rw [← List.append_assoc, alwaysPassed_concat, alwaysPassed_concat, ih]
      by_cases hb : m.isAlwaysPassed b = true
      · simp [hb, Nat.add_assoc]
      · simp [hb, or_and_right, exists_or]

/-- What is always passed depends on one argument alone only if no later one is always passed. -/
theorem alwaysPassed_eq_iff {a' : Argument} (before after : List Argument) :
    m.alwaysPassed (before ++ a' :: after) = m.alwaysPassed (before ++ a :: after) ↔
      m.isAlwaysPassed a' = m.isAlwaysPassed a ∨ ∃ b ∈ after, m.isAlwaysPassed b = true := by
  have hsplit : ∀ a : Argument, before ++ a :: after = before ++ [a] ++ after := by simp
  have hbefore := m.alwaysPassed_le before
  rw [hsplit, hsplit, alwaysPassed_append (before ++ [a']), alwaysPassed_append (before ++ [a]),
    alwaysPassed_concat, alwaysPassed_concat]
  by_cases hafter : ∃ b ∈ after, m.isAlwaysPassed b = true
  · simp [hafter]
  · rw [if_neg hafter, if_neg hafter]
    cases m.isAlwaysPassed a' <;> cases m.isAlwaysPassed a <;> simp [hafter] <;> omega

/-- An alias of a dictionary is always passed only if it is required or has a default. -/
theorem isAlwaysPassed_eq_iff {t : Typedef} {basic : Option Scalar}
    (hn : m.resolve? (.named n) = some (.name (.typedef t basic))) :
    m.isAlwaysPassed { a with type := .named n } = m.isAlwaysPassed a ↔
      ((∃ d, m.resolve? a.type = some (.name (.dictionary d))) → a.optional = true →
        a.default ≠ none) := by
  have hdictionary : ¬∃ d, m.resolve? (.named n) = some (.name (.dictionary d)) := by
    simp [hn]
  rw [Bool.eq_iff_iff, isAlwaysPassed_iff, isAlwaysPassed_iff]
  simp only [hdictionary, or_false]
  cases a.optional <;> by_cases hdefault : a.default = none <;> simp [hdefault]

/-- The calls of two signatures for one function are the same in every run exactly if the arguments
that are always passed are. -/
theorem calls_invoke_eq_iff (h : call.IsSupported m) (h' : call'.IsSupported m)
    (hcallee : call'.callee = call.callee)
    (hlength : call'.arguments.length = call.arguments.length) :
    (∀ holds, (m.invoke call').calls holds = (m.invoke call).calls holds) ↔
      m.alwaysPassed call'.arguments = m.alwaysPassed call.arguments := by
  constructor
  · intro hcalls
    -- Without any argument a call passes just those.
    have hnone : ∀ {call : Invocation}, call.IsSupported m →
        (m.invoke call).calls (fun _ => false) =
          [(call.callee, m.alwaysPassed call.arguments)] := by
      intro call h
      obtain ⟨passed, ⟨hpassed, _⟩, hcalls⟩ := exists_calls_invoke h fun _ => false
      rcases hpassed with rfl | ⟨i, ⟨_, _, hpresent⟩, _⟩
      · exact hcalls
      · cases hpresent
    have heq := hcalls fun _ => false
    rw [hnone h, hnone h', List.cons.injEq, Prod.mk.injEq] at heq
    exact heq.1.2
  · intro hleast holds
    obtain ⟨passed, hpassed, hcalls⟩ := exists_calls_invoke h holds
    obtain ⟨passed', hpassed', hcalls'⟩ := exists_calls_invoke h' holds
    rw [hleast, hlength] at hpassed'
    rw [hcalls, hcalls', hcallee, IsGreatest.unique hpassed' hpassed]

end Model

/-! ## Signatures under an alias -/

theorem Invocation.exists_withType_eq {i : Nat} (ha : call.arguments[i]? = some a) (x : IdlType) :
    ∃ before after, before.length = i ∧ call.arguments = before ++ a :: after ∧
      (call.withType i x).arguments = before ++ { a with type := x } :: after := by
  obtain ⟨hi, rfl⟩ := List.getElem?_eq_some_iff.mp ha
  refine ⟨call.arguments.take i, call.arguments.drop (i + 1), ?_, ?_, ?_⟩
  · rw [List.length_take, Nat.min_eq_left (Nat.le_of_lt hi)]
  · simp
  · exact List.modify_eq_take_cons_drop hi

/-- The elements behind an index. -/
theorem exists_getElem?_behind_iff {α : Type} {before after : List α} {x : α} {p : α → Prop} :
    (∃ j y, before.length < j ∧ (before ++ x :: after)[j]? = some y ∧ p y) ↔
      ∃ y ∈ after, p y := by
  constructor
  · rintro ⟨j, y, hj, hy, hp⟩
    obtain ⟨k, rfl⟩ := Nat.exists_eq_add_of_lt hj
    rw [List.getElem?_append_right (by omega), Nat.add_assoc, Nat.add_sub_cancel_left,
      List.getElem?_cons_succ] at hy
    exact ⟨y, List.mem_of_getElem? hy, hp⟩
  · rintro ⟨y, hy, hp⟩
    obtain ⟨k, hk⟩ := List.mem_iff_getElem?.mp hy
    refine ⟨before.length + (k + 1), y, by omega, ?_, hp⟩
    rw [List.getElem?_append_right (by omega), Nat.add_sub_cancel_left, List.getElem?_cons_succ, hk]

theorem Invocation.IsSupported.withType {i : Nat} (h : call.IsSupported m)
    (ha : call.arguments[i]? = some a) (hx : (m.resolve? x).isSome = true) :
    (call.withType i x).IsSupported m where
  arguments := by
    obtain ⟨before, after, _, harguments, htyped⟩ := exists_withType_eq ha x
    have hall := h.arguments
    rw [harguments, List.forall_mem_append, List.forall_mem_cons] at hall
    rw [htyped, List.forall_mem_append, List.forall_mem_cons]
    exact ⟨hall.1, ⟨hall.2.1.1, hx⟩, hall.2.2⟩
  result := h.result

/-- **When an alias makes a difference.** In a supported signature the type of one argument is
replaced by an alias of it. The calls are the same in every run, unless the argument is an optional
dictionary without a default and no later argument is always passed. All variables start with the
same values, unless the argument has a quoted default that is a text for a scalar or a literal of an
enumeration. -/
theorem alias_neutral_iff {i : Nat} (h : call.IsSupported m) (ha : call.arguments[i]? = some a)
    (hn : m.Renames n a.type) :
    (call.withType i (.named n)).IsSupported m ∧
    ((∀ holds, (m.invoke (call.withType i (.named n))).calls holds =
        (m.invoke call).calls holds) ↔
      ((∃ d, m.resolve? a.type = some (.name (.dictionary d))) → a.optional = true →
        a.default = none → ∃ j b, i < j ∧ call.arguments[j]? = some b ∧
          (b.optional = false ∨ b.default ≠ none ∨
            ∃ d, m.resolve? b.type = some (.name (.dictionary d))))) ∧
    ((m.invoke (call.withType i (.named n))).starts = (m.invoke call).starts ↔
      ∀ text, a.default = some text → text.toList.head? = some '"' →
        (∀ s, m.resolve? a.type ≠ some (.name (.scalar s))) ∧
          ∀ e, m.resolve? a.type = some (.name (.enumeration e)) →
            ∀ v ∈ e.values, v.literal ≠ trimQuotes text) := by
  have hx := (h.arguments a (List.mem_of_getElem? ha)).2
  obtain ⟨t, basic, hresolve⟩ := hn.exists_resolve? hx
  have h' : (call.withType i (.named n)).IsSupported m := h.withType ha (by rw [hresolve]; rfl)
  obtain ⟨before, after, rfl, harguments, htyped⟩ := Invocation.exists_withType_eq ha (.named n)
  refine ⟨h', ?_, ?_⟩
  · rw [Model.calls_invoke_eq_iff h h' rfl (by simp [htyped, harguments]), htyped, harguments,
      Model.alwaysPassed_eq_iff, Model.isAlwaysPassed_eq_iff hresolve, exists_getElem?_behind_iff]
    simp only [← Model.isAlwaysPassed_iff]
    tauto
  · rw [Model.starts_invoke h, Model.starts_invoke h', htyped, harguments,
      ← Model.initializer_eq_iff hresolve]
    constructor
    · intro hstarts
      have hvalues := congrArg (List.map Prod.fst) hstarts
      simpa only [List.zipIdx_map_fst, List.map_append, List.map_cons, List.append_cancel_left_eq,
        List.cons.injEq, and_true] using hvalues
    · intro hvalue
      simp only [List.map_append, List.map_cons, hvalue]

/-! ## Defaults that are lost -/

/-- Bells with a style and a tone, and aliases of the types of both. -/
def bells : Model where
  interfaces := []
  dictionaries := [⟨"Style", [⟨"width", .named "long", false, none⟩]⟩]
  enums := [⟨"Tone", [⟨"low", "Low"⟩, ⟨"high", "High"⟩]⟩]
  typedefs := [⟨"Label", .named "DOMString"⟩, ⟨"Pitch", .named "Tone"⟩, ⟨"Look", .named "Style"⟩,
    ⟨"Theme", .named "Look"⟩]

theorem renames_label : bells.Renames "Label" (.named "DOMString") where
  chain := ⟨[], .link rfl (.name rfl)⟩
  alone := by
    rw [Model.isKnown_iff]
    decide

theorem renames_pitch : bells.Renames "Pitch" (.named "Tone") where
  chain := ⟨[], .link rfl (.name rfl)⟩
  alone := by
    rw [Model.isKnown_iff]
    decide

theorem renames_theme : bells.Renames "Theme" (.named "Style") where
  chain := ⟨["Look"], .link rfl (.link rfl (.name rfl))⟩
  alone := by
    rw [Model.isKnown_iff]
    decide

/-- Takes a name and a tone with quoted defaults. -/
def ringBell : Invocation where
  callee := .method "ring"
  arguments := [⟨"name", .named "DOMString", true, false, some "\"door\""⟩,
    ⟨"tone", .named "Tone", true, false, some "\"high\""⟩]
  result := none
  name := "Bell.ring"

/-- Takes a style, and only that. -/
def paintBell : Invocation where
  callee := .method "paint"
  arguments := [⟨"style", .named "Style", true, false, none⟩]
  result := none
  name := "Bell.paint"

/-- Takes a style before a number with a default. -/
def castBell : Invocation where
  callee := .static "Bell" "cast"
  arguments := [⟨"style", .named "Style", true, false, none⟩,
    ⟨"weight", .named "long", true, false, some "7"⟩]
  result := none
  name := "Bell.cast"

theorem isSupported_ringBell : ringBell.IsSupported bells := by
  decide

theorem isSupported_paintBell : paintBell.IsSupported bells := by
  decide

theorem isSupported_castBell : castBell.IsSupported bells := by
  decide

/-- Before an argument that is always passed, an alias of a dictionary makes no difference. -/
theorem alias_neutral_iff_castBell :
    castBell.IsSupported bells ∧ bells.Renames "Theme" (.named "Style") ∧
      (∀ holds, (bells.invoke (castBell.withType 0 (.named "Theme"))).calls holds =
        (bells.invoke castBell).calls holds) ∧
      (bells.invoke (castBell.withType 0 (.named "Theme"))).starts =
        (bells.invoke castBell).starts := by
  obtain ⟨_, hcalls, hstarts⟩ := alias_neutral_iff isSupported_castBell
    (a := ⟨"style", .named "Style", true, false, none⟩) (i := 0) rfl renames_theme
  refine ⟨isSupported_castBell, renames_theme, hcalls.mpr ?_, hstarts.mpr ?_⟩
  · intro _ _ _
    exact ⟨1, _, Nat.zero_lt_one, rfl, .inr (.inl (by simp))⟩
  · rintro text ⟨⟩

/-- An alias takes the default from a text and from an enumeration, and it lets a dictionary go that
is left out. -/
theorem default_lost_under_alias :
    bells.Renames "Label" (.named "DOMString") ∧ bells.Renames "Pitch" (.named "Tone") ∧
      bells.Renames "Theme" (.named "Style") ∧
      ringBell.IsSupported bells ∧ paintBell.IsSupported bells ∧
      (bells.invoke ringBell).starts = [(.literal "door", 0), (.enumerator "Tone" "High", 1)] ∧
      (bells.invoke (ringBell.withType 0 (.named "Label"))).starts =
        [(.zero, 0), (.enumerator "Tone" "High", 1)] ∧
      (bells.invoke (ringBell.withType 1 (.named "Pitch"))).starts =
        [(.literal "door", 0), (.zero, 1)] ∧
      (bells.invoke paintBell).calls (fun _ => false) = [(.method "paint", 1)] ∧
      (bells.invoke (paintBell.withType 0 (.named "Theme"))).calls (fun _ => false) =
        [(.method "paint", 0)] :=
  ⟨renames_label, renames_pitch, renames_theme, isSupported_ringBell, isSupported_paintBell,
    by decide, by decide, by decide, by decide, by decide⟩

end IdlBindings
