import IdlBindings.Proofs.Model.Accepted
import IdlBindings.Proofs.Model.Body
import Mathlib.Data.List.Induction
import Mathlib.Data.List.Perm.Subperm

/-!
# Ancestors and what they pass on

A walk up the ancestors keeps the names it has passed, which are distinct names of bodies, so it
ends before the number of bodies is used up: where it succeeds it has gone the whole way. What an
ancestor passes on is decided by keys. A member without a key stays where it is, and of those with a
key the first one counts. It makes no difference whether a body inherits from all its ancestors one
after the other, or from its parent alone with all that the parent has inherited.

## Main definitions

* `Body.Lineage`: the ancestors of a body, nearest first
* `Body.Keyed`: members are let in by their keys
* `Body.offered`, `Body.firstOfEach`: what a list of members has to offer, and what is taken of it
* `MemberKey`, `Member.key?`: the keys of members of interfaces
-/
namespace IdlBindings

namespace Body

variable {μ : Type} {kind : InheritingKind} {bodies : List (Body μ)} {b : Body μ}

/-! ## Walking up -/

/-- The bodies `above` are all ancestors of a body, nearest first. -/
inductive Lineage (bodies : List (Body μ)) : Body μ → List (Body μ) → Prop
  | root {b : Body μ} (hroot : b.parent = none) : Lineage bodies b []
  | heir {b a : Body μ} {above : List (Body μ)} {parent : String}
      (hparent : b.parent = some parent) (hfind : find? bodies parent = some a)
      (habove : Lineage bodies a above) : Lineage bodies b (a :: above)

theorem Lineage.unique {above above' : List (Body μ)} (h : Lineage bodies b above)
    (h' : Lineage bodies b above') : above = above' := by
  induction h generalizing above' with
  | root hroot =>
      cases h' with
      | root => rfl
      | heir hparent => simp [hroot] at hparent
  | heir hparent hfind _ ih =>
      cases h' with
      | root hroot => simp [hroot] at hparent
      | heir hparent' hfind' habove' =>
          obtain rfl : _ = _ := Option.some.inj (hparent.symm.trans hparent')
          obtain rfl : _ = _ := Option.some.inj (hfind.symm.trans hfind')
          rw [ih habove']

/-- Distinct names of bodies are no more than the bodies. -/
theorem length_le_of_subset_names {path : List String} (hnodup : path.Nodup)
    (hsub : path ⊆ names bodies) : path.length ≤ bodies.length := by
  simpa [names] using (List.subperm_of_subset hnodup hsub).length_le

/-- The bound on the steps of a walk is not what ends it. -/
theorem lineage_of_ancestorsFrom {n : Nat} {path : List String} {above : List (Body μ)}
    (hnodup : path.Nodup) (hsub : path ⊆ names bodies) (hn : bodies.length < n + path.length)
    (h : ancestorsFrom kind bodies n path b = .ok above) : Lineage bodies b above := by
  induction n generalizing path b above with
  | zero =>
      have := length_le_of_subset_names hnodup hsub
      omega
  | succ n ih =>
      rw [ancestorsFrom] at h
      cases hp : b.parent with
      | none =>
          simp only [hp, Except.ok.injEq] at h
          subst h
          exact .root hp
      | some parent =>
          simp only [hp] at h
          by_cases hmem : parent ∈ path
          · simp [hmem] at h
          · cases hf : find? bodies parent with
            | none => simp [hmem, hf] at h
            | some a =>
                simp only [hmem, if_false, hf, bind_eq_ok_iff, pure_eq_ok_iff] at h
                obtain ⟨rest, hrest, rfl⟩ := h
                -- The path stays free of repetitions because the parent was not on it.
                refine .heir hp hf (ih ?_ ?_ ?_ hrest)
                · simpa using hnodup.concat hmem
                · rw [List.append_subset]
                  refine ⟨hsub, ?_⟩
                  simpa using mem_names_iff.mpr ⟨a, hf⟩
                · simp only [List.length_append, List.length_singleton]
                  omega

theorem lineage_of_ancestors {above : List (Body μ)} (hb : b.name ∈ names bodies)
    (h : ancestors kind bodies b = .ok above) : Lineage bodies b above := by
  refine lineage_of_ancestorsFrom (List.nodup_singleton _) ?_ ?_ h
  · simpa using hb
  · simp only [List.length_singleton]
    omega

theorem flatten_eq_ok_iff {adds : List μ → μ → Bool} {members : List μ} :
    flatten kind adds bodies b = .ok members ↔
      ∃ above, ancestors kind bodies b = .ok above ∧
        inherit adds b.members (above.flatMap Body.members) = members := by
  simp only [flatten, bind_eq_ok_iff, pure_eq_ok_iff]

/-! ## Passing on by keys -/

variable {κ : Type} [DecidableEq κ] {key : μ → Option κ} {adds : List μ → μ → Bool}
  {own xs ys : List μ} {x : μ}

/-- A member is let in if it has a key that no member before it has. -/
def Keyed (key : μ → Option κ) (adds : List μ → μ → Bool) : Prop :=
  ∀ members x, adds members x = true ↔
    (key x).isSome = true ∧ ∀ y ∈ members, key y ≠ key x

/-- The members with a key that none of `own` has. -/
def offered (key : μ → Option κ) (own xs : List μ) : List μ :=
  xs.filter fun x => (key x).isSome && own.all fun y => key y ≠ key x

/-- The members that are the first ones with their key. -/
def firstOfEach (key : μ → Option κ) (xs : List μ) : List μ :=
  xs.eraseDupsBy fun x y => key x == key y

@[simp] theorem offered_nil : offered key own [] = [] := rfl

theorem offered_cons_of_adds (hadds : Keyed key adds) (h : adds own x = true) :
    offered key own (x :: xs) = x :: offered key own xs := by
  have := (hadds own x).mp h
  exact List.filter_cons_of_pos (by simpa using this)

theorem offered_cons_of_not_adds (hadds : Keyed key adds) (h : ¬adds own x = true) :
    offered key own (x :: xs) = offered key own xs := by
  rw [hadds own x] at h
  exact List.filter_cons_of_neg (by simpa using h)

theorem isSome_key_of_mem_offered (h : x ∈ offered key own xs) : (key x).isSome = true := by
  have := (List.mem_filter.mp h).2
  exact (Bool.and_eq_true_iff.mp this).1

theorem firstOfEach_cons :
    firstOfEach key (x :: xs) =
      x :: firstOfEach key (xs.filter fun y => key y ≠ key x) := by
  rw [firstOfEach, List.eraseDupsBy_cons]
  simp [firstOfEach]

/-- Taking the first of each key goes on with the members whose key is still free. -/
theorem induction_by_key (key : μ → Option κ) {P : List μ → Prop} (nil : P [])
    (cons : ∀ x xs, P (xs.filter fun y => key y ≠ key x) → P (x :: xs)) (xs : List μ) : P xs := by
  induction h : xs.length using Nat.strongRecOn generalizing xs with
  | _ n ih =>
    cases xs with
    | nil => exact nil
    | cons x xs =>
      have hlen := List.length_filter_le (fun y => decide (key y ≠ key x)) xs
      refine cons x xs (ih _ ?_ _ rfl)
      rw [← h, List.length_cons]
      omega

theorem firstOfEach_sublist (key : μ → Option κ) (xs : List μ) :
    (firstOfEach key xs).Sublist xs := by
  induction xs using induction_by_key key with
  | nil => exact .slnil
  | cons x xs ih =>
      rw [firstOfEach_cons]
      exact (ih.trans List.filter_sublist).cons_cons x

/-- All are the first with their key exactly if no two have the same. -/
theorem firstOfEach_eq_self_iff :
    firstOfEach key xs = xs ↔ xs.Pairwise fun x y => key x ≠ key y := by
  induction xs with
  | nil => simp [firstOfEach]
  | cons x xs ih =>
      rw [firstOfEach_cons, List.pairwise_cons, List.cons.injEq]
      constructor
      · rintro ⟨_, h⟩
        have hle := (firstOfEach_sublist key (xs.filter fun y => key y ≠ key x)).length_le
        rw [h] at hle
        have hall := List.filter_sublist.eq_of_length_le hle
        rw [hall] at h
        refine ⟨?_, ih.mp h⟩
        intro y hy heq
        have hne := List.filter_eq_self.mp hall y hy
        simp [heq] at hne
      · rintro ⟨hx, hxs⟩
        have hall : xs.filter (fun y => key y ≠ key x) = xs :=
          List.filter_eq_self.mpr fun y hy => by simpa using (hx y hy).symm
        exact ⟨rfl, by rw [hall, ih.mpr hxs]⟩

/-- **What a body inherits**: of the members with a key that it does not have itself, the first of
each key. -/
theorem inherit_eq (hadds : Keyed key adds) :
    inherit adds own xs = own ++ firstOfEach key (offered key own xs) := by
  induction xs generalizing own with
  | nil => simp [inherit, firstOfEach]
  | cons x xs ih =>
      have hstep : inherit adds own (x :: xs) =
          inherit adds (if adds own x then own ++ [x] else own) xs := rfl
      rw [hstep]
      by_cases h : adds own x = true
      · rw [if_pos h, ih, offered_cons_of_adds hadds h, firstOfEach_cons, List.append_assoc,
          List.singleton_append]
        congr 3
        rw [offered, offered, List.filter_filter]
        refine List.filter_congr fun y _ => ?_
        by_cases hy : key y = key x <;> simp [hy, eq_comm, Bool.and_comm]
      · rw [if_neg h, ih, offered_cons_of_not_adds hadds h]

theorem inherit_concat (own xs : List μ) (z : μ) :
    inherit adds own (xs ++ [z]) =
      if adds (inherit adds own xs) z then inherit adds own xs ++ [z]
      else inherit adds own xs := by
  rw [inherit, List.foldl_append]
  rfl

theorem mem_inherit_concat {y z : μ} (h : y ∈ inherit adds own xs) :
    y ∈ inherit adds own (xs ++ [z]) := by
  rw [inherit_concat]
  split
  · exact List.mem_append_left _ h
  · exact h

/-- A key that a body could inherit is among its members afterwards. -/
theorem exists_mem_inherit (hadds : Keyed key adds) (own : List μ) (hx : x ∈ xs)
    (hkey : (key x).isSome = true) : ∃ y ∈ inherit adds own xs, key y = key x := by
  induction xs using List.reverseRecOn with
  | nil => simp at hx
  | append_singleton xs z ih =>
      rcases List.mem_append.mp hx with hx | hx
      · obtain ⟨y, hy, heq⟩ := ih hx
        exact ⟨y, mem_inherit_concat hy, heq⟩
      · obtain rfl := List.mem_singleton.mp hx
        by_cases h : ∃ y ∈ inherit adds own xs, key y = key x
        · obtain ⟨y, hy, heq⟩ := h
          exact ⟨y, mem_inherit_concat hy, heq⟩
        · have hlet : adds (inherit adds own xs) x = true :=
            (hadds _ x).mpr ⟨hkey, fun y hy heq => h ⟨y, hy, heq⟩⟩
          exact ⟨x, by simp [inherit_concat, hlet], rfl⟩

/-- **Inheriting step by step.** What an ancestor has inherited may stand for its own members
followed by those above it. -/
theorem inherit_inherit (hadds : Keyed key adds) :
    inherit adds own (inherit adds xs ys) = inherit adds own (xs ++ ys) := by
  induction ys using List.reverseRecOn with
  | nil => simp [inherit]
  | append_singleton ys z ih =>
      rw [← List.append_assoc, inherit_concat own, ← ih, inherit_concat xs]
      by_cases h : adds (inherit adds xs ys) z = true
      · rw [if_pos h, inherit_concat]
      · -- What the ancestor turned down is turned down here too: its key is taken by then.
        rw [if_neg h, if_neg]
        intro hz
        rw [hadds] at h hz
        apply h
        refine ⟨hz.1, ?_⟩
        intro y hy heq
        obtain ⟨w, hw, hwy⟩ := exists_mem_inherit hadds own hy (heq ▸ hz.1)
        exact hz.2 w hw (hwy.trans heq)

/-- **A body inherits from its parent alone.** Its members are what it inherits from all members of
its parent, those that the parent has inherited included. -/
theorem flatten_heir (hadds : Keyed key adds) {parent : String} {members : List μ}
    (hb : b.name ∈ names bodies) (hparent : b.parent = some parent)
    (h : flatten kind adds bodies b = .ok members) :
    ∃ a, find? bodies parent = some a ∧ ∀ inherited,
      flatten kind adds bodies a = .ok inherited → members = inherit adds b.members inherited := by
  obtain ⟨above, habove, rfl⟩ := flatten_eq_ok_iff.mp h
  cases lineage_of_ancestors hb habove with
  | root hroot => simp [hroot] at hparent
  | heir hparent' hfind hrest =>
      obtain rfl : _ = _ := Option.some.inj (hparent.symm.trans hparent')
      refine ⟨_, hfind, ?_⟩
      intro inherited hinherited
      obtain ⟨above', habove', rfl⟩ := flatten_eq_ok_iff.mp hinherited
      have hmem := mem_names_iff.mpr ⟨_, find?_name hfind⟩
      obtain rfl := hrest.unique (lineage_of_ancestors hmem habove')
      rw [inherit_inherit hadds, List.flatMap_cons]

end Body

/-! ## Keys of members -/

/-- What tells the members of an interface apart: the kind and the name. -/
inductive MemberKey where
  | operation (name : String)
  | attribute (name : String)
deriving DecidableEq, Repr

/-- The key of a member. A constructor has none. -/
def Member.key? : Member → Option MemberKey
  | .operation op => some (.operation op.name)
  | .attribute attr => some (.attribute attr.name)
  | .constructor _ => none

namespace Member

theorem key?_eq_operation_iff {x : Member} {name : String} :
    x.key? = some (.operation name) ↔ x.operation?.map Operation.name = some name := by
  rcases x with op | attr | ctor <;> simp [key?, operation?]

theorem key?_eq_attribute_iff {x : Member} {name : String} :
    x.key? = some (.attribute name) ↔ x.attribute?.map Attribute.name = some name := by
  rcases x with op | attr | ctor <;> simp [key?, attribute?]

theorem addsTo_keyed : Body.Keyed key? addsTo := by
  intro members x
  rcases x with op | attr | ctor
  · have hkey : key? (.operation op) = some (.operation op.name) := rfl
    simp only [addsTo, hkey, ne_eq, key?_eq_operation_iff]
    simp
  · have hkey : key? (.attribute attr) = some (.attribute attr.name) := rfl
    simp only [addsTo, hkey, ne_eq, key?_eq_attribute_iff]
    simp
  · simp [addsTo, key?]

end Member
end IdlBindings
