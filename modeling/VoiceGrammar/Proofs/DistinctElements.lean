/-
# Where the elements of an enumeration come from

An enumeration lists the distinct elements of its slot. They are collected by a loop that keeps
an element unless it has kept it before. A text is read against a slot by a search for the
first element that is spelled like it. After every step of the loop, what it has kept stands in
the order in which the search finds it (`pairwise_distinct`). So the place in the slot grows with
the place in the enumeration, and the search ends at these places and no others
(`Slot.origins`): an enumeration accepts what its slot accepts, in the same order.
-/
import Mathlib.Order.Fin.Basic
import VoiceGrammar.Proofs.Kotlin.Refinement
import VoiceGrammar.Proofs.Rust.Labels

namespace VoiceGrammar

set_option autoImplicit false

namespace Decoder

/-- One more element is kept if it is new. -/
theorem distinct_concat (elements : List String) (element : String) :
    distinct (elements ++ [element]) =
      if element ∈ elements then distinct elements else distinct elements ++ [element] := by
  rw [distinct, List.foldl_append, ← distinct, List.foldl_cons, List.foldl_nil]
  simp only [List.contains_eq_mem, decide_eq_true_eq, mem_distinct]

/-- What the loop keeps is in the order of the first places. -/
theorem pairwise_distinct (elements : List String) :
    (distinct elements).Pairwise fun one other => elements.idxOf one < elements.idxOf other := by
  induction elements using List.reverseRecOn with
  | nil => exact List.Pairwise.nil
  | append_singleton elements element ih =>
      -- a further element leaves the first places of the others as they are
      have kept : (distinct elements).Pairwise fun one other =>
          (elements ++ [element]).idxOf one < (elements ++ [element]).idxOf other := by
        apply ih.imp_of_mem
        intro one other listed listed' before
        rw [List.idxOf_append_of_mem (mem_distinct.mp listed),
          List.idxOf_append_of_mem (mem_distinct.mp listed')]
        exact before
      rw [distinct_concat]
      by_cases known : element ∈ elements
      · rw [if_pos known]
        exact kept
      · rw [if_neg known, List.pairwise_append]
        refine ⟨kept, List.pairwise_singleton _ _, ?_⟩
        intro one listed other last
        have earlier := mem_distinct.mp listed
        have place := List.idxOf_lt_length_of_mem earlier
        rw [List.mem_singleton.mp last, List.idxOf_append_of_mem earlier,
          List.idxOf_append_of_notMem known]
        omega

end Decoder

open Decoder

namespace Slot

variable {slot : Slot}

theorem position?_eq_some_idxOf_iff {raw : String} {index : Nat} :
    slot.position? raw = some index ↔ raw ∈ slot.elements ∧ slot.elements.idxOf raw = index := by
  rw [position?, List.idxOf?, List.findIdx?_eq_some_iff_findIdx_eq, ← List.idxOf_lt_length_iff]
  constructor
  · rintro ⟨bound, rfl⟩
    exact ⟨bound, rfl⟩
  · rintro ⟨bound, rfl⟩
    exact ⟨bound, rfl⟩

variable (slot)

/-- The place in the slot at which an element of the enumeration occurs first. -/
def origin (place : Fin (distinct slot.elements).length) : Fin slot.elements.length :=
  ⟨slot.elements.idxOf ((distinct slot.elements).get place),
    List.idxOf_lt_length_of_mem (mem_distinct.mp (List.get_mem _ place))⟩

/-- Places in the enumeration stand for first places in the slot, in order, and a search ends
at these. -/
structure Origins (origin : Fin (distinct slot.elements).length → Fin slot.elements.length) :
    Prop where
  increasing : StrictMono origin
  same : ∀ place, slot.elements.get (origin place) = (distinct slot.elements).get place
  first : ∀ place, ∀ earlier < origin place,
    slot.elements.get earlier ≠ (distinct slot.elements).get place
  found : ∀ raw index, slot.position? raw = some index ↔
    ∃ place, (distinct slot.elements).get place = raw ∧ (origin place).val = index

theorem position?_get_distinct (place : Fin (distinct slot.elements).length) :
    slot.position? ((distinct slot.elements).get place) = some (slot.origin place).val := by
  rw [position?_eq_some_idxOf_iff]
  exact ⟨mem_distinct.mp (List.get_mem _ place), rfl⟩

theorem origins : slot.Origins slot.origin where
  increasing := by
    intro place later before
    have ordered := List.pairwise_iff_getElem.mp (pairwise_distinct slot.elements)
    exact ordered place later place.isLt later.isLt before
  same place := List.idxOf_get _
  first := by
    intro place earlier before same
    have absent := (position?_eq_some_iff.mp (slot.position?_get_distinct place)).2 earlier before
    apply absent
    rw [← same, List.get_eq_getElem, List.getElem?_eq_getElem]
  found := by
    intro raw index
    constructor
    · intro found
      obtain ⟨listed, rfl⟩ := position?_eq_some_idxOf_iff.mp found
      obtain ⟨place, rfl⟩ := List.get_of_mem (mem_distinct.mpr listed)
      exact ⟨place, rfl, rfl⟩
    · rintro ⟨place, rfl, rfl⟩
      exact slot.position?_get_distinct place

/-- Two texts are listed in the order in which they are found. -/
theorem position?_lt_iff {raw other : String} {index index' : Nat}
    (found : slot.position? raw = some index) (found' : slot.position? other = some index') :
    index < index' ↔
      (distinct slot.elements).idxOf raw < (distinct slot.elements).idxOf other := by
  obtain ⟨place, rfl, rfl⟩ := (slot.origins.found raw index).mp found
  obtain ⟨place', rfl, rfl⟩ := (slot.origins.found other index').mp found'
  have once := nodup_distinct slot.elements
  rw [List.get_idxOf once, List.get_idxOf once]
  exact slot.origins.increasing.lt_iff_lt

end Slot

namespace Decoder

/-- The enumerations of a slot have its elements, each once and in the order of their first places,
and accept what a search in the slot finds. -/
theorem enumerations_follow_search (slot : Slot) :
    (distinct slot.elements).Nodup ∧
    (∀ element, element ∈ distinct slot.elements ↔ element ∈ slot.elements) ∧
    slot.Origins slot.origin ∧
    (Rust.EnumDecl.ofSlot slot).Represents (distinct slot.elements) ∧
    (Kotlin.EnumDecl.ofSlot slot).entries = distinct slot.elements ∧
    (∀ raw,
      ((∃ datum, (Rust.EnumDecl.ofSlot slot).parse raw = .ok (some datum)) ↔
        ∃ index, slot.position? raw = some index) ∧
      ((∃ entry, (Kotlin.EnumDecl.ofSlot slot).entries.find? (· == raw) = some entry) ↔
        ∃ index, slot.position? raw = some index)) ∧
    ∀ raw other index index',
      slot.position? raw = some index → slot.position? other = some index' →
        (index < index' ↔
          (distinct slot.elements).idxOf raw < (distinct slot.elements).idxOf other) := by
  refine ⟨nodup_distinct _, fun _ => mem_distinct, slot.origins, Rust.represents_ofSlot,
    Kotlin.entries_ofSlot slot, ?_, fun _ _ _ _ => slot.position?_lt_iff⟩
  intro raw
  have found : (∃ index, slot.position? raw = some index) ↔ raw ∈ slot.elements := by
    rw [← Option.isSome_iff_exists, Slot.position?_isSome_iff]
  rw [found, Rust.parse_ofSlot, Kotlin.find?_entries]
  by_cases listed : raw ∈ slot.elements
  · simp [listed]
  · simp [listed]

end Decoder

end VoiceGrammar
