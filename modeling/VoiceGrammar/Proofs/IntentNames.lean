/-
# Intents whose types stand side by side

Names are checked in one walk over the intents that carries the types taken so far. An
intent gets its type (`claimType_eq_ok`) or is reported (`claimType_eq_error`); behind
intents with usable types the walk carries exactly these (`claimTypes_eq_ok`). So a model
is accepted if the types of its intents are usable (`checkNames_eq_ok`), and otherwise
the first intent that spoils this is blamed (`checkNames_eq_error`).
-/
import Mathlib.Data.List.Induction
import VoiceGrammar.Proofs.Outcome
import VoiceGrammar.Target

namespace VoiceGrammar.Model

set_option autoImplicit false

/-- Every intent has a type of its own that the decoder does not declare itself. -/
def TypesUsable (target : Target) (intents : List Intent) : Prop :=
  (intents.map fun intent => target.intentType intent.name).Nodup ∧
    ∀ intent ∈ intents, target.intentType intent.name ∉ target.declaredTypes

/-- What is wrong with the type of an intent behind others. Of several with the same type the
earliest is named. -/
inductive Unusable (target : Target) (before : List Intent) (intent : Intent) :
    NameError → Prop where
  | reserved (declared : target.intentType intent.name ∈ target.declaredTypes) :
      Unusable target before intent
        (.reserved intent.name (target.intentType intent.name) target)
  | clash {earlier between : List Intent} {first : Intent}
      (free : target.intentType intent.name ∉ target.declaredTypes)
      (split : before = earlier ++ first :: between)
      (same : target.intentType first.name = target.intentType intent.name)
      (earliest : ∀ other ∈ earlier,
        target.intentType other.name ≠ target.intentType intent.name) :
      Unusable target before intent
        (.clash first.name intent.name (target.intentType intent.name) target)

/-- What the walk carries behind these intents. -/
def taken (target : Target) (intents : List Intent) : List (String × String) :=
  intents.map fun intent => (target.intentType intent.name, intent.name)

variable {target : Target}

/-! ## One intent -/

theorem claimType_eq_ok {taken next : List (String × String)} {intent : Intent} :
    claimType target taken intent = .ok next ↔
      target.intentType intent.name ∉ target.declaredTypes ∧
      target.intentType intent.name ∉ taken.map Prod.fst ∧
      next = taken ++ [(target.intentType intent.name, intent.name)] := by
  unfold claimType
  dsimp only
  by_cases declared : target.intentType intent.name ∈ target.declaredTypes
  · simp [declared]
  · cases found : taken.lookup (target.intentType intent.name) with
    | some first =>
        obtain ⟨before, after, rfl, -⟩ := List.lookup_eq_some_iff.mp found
        simp [declared]
    | none =>
        have fresh := lookup_eq_none_iff_notMem.mp found
        simp [declared, fresh, eq_comm]

/-- A type is found with the name of the earliest intent that has it. -/
theorem lookup_taken {intents : List Intent} {type name : String} :
    (taken target intents).lookup type = some name ↔
      ∃ earlier first between, intents = earlier ++ first :: between ∧
        target.intentType first.name = type ∧ first.name = name ∧
        ∀ other ∈ earlier, target.intentType other.name ≠ type := by
  rw [List.lookup_eq_some_iff]
  constructor
  · rintro ⟨front, back, split, fresh⟩
    obtain ⟨earlier, rest, rfl, rfl, behind⟩ := List.map_eq_append_iff.mp split
    obtain ⟨first, between, rfl, same, rfl⟩ := List.map_eq_cons_iff.mp behind
    cases same
    refine ⟨earlier, first, between, rfl, rfl, rfl, fun other member alike => ?_⟩
    simpa [alike] using fresh _ (List.mem_map_of_mem member)
  · rintro ⟨earlier, first, between, rfl, rfl, rfl, fresh⟩
    refine ⟨taken target earlier, taken target between, by simp [taken], ?_⟩
    intro pair member
    obtain ⟨other, among, rfl⟩ := List.mem_map.mp member
    exact bne_iff_ne.mpr (fresh other among).symm

theorem claimType_eq_error {before : List Intent} {intent : Intent} {error : NameError} :
    claimType target (taken target before) intent = .error error ↔
      Unusable target before intent error := by
  unfold claimType
  dsimp only
  by_cases declared : target.intentType intent.name ∈ target.declaredTypes
  · rw [if_pos (List.contains_iff_mem.mpr declared)]
    constructor
    · rintro ⟨⟩
      exact .reserved declared
    · rintro (_ | ⟨free, -, -, -⟩)
      · rfl
      · exact absurd declared free
  · rw [if_neg (mt List.contains_iff_mem.mp declared)]
    constructor
    · intro failed
      split at failed
      · rename_i name found
        obtain ⟨earlier, first, between, split, same, rfl, earliest⟩ := lookup_taken.mp found
        cases failed
        exact .clash declared split same earliest
      · cases failed
    · rintro (reserved | ⟨-, split, same, earliest⟩)
      · exact absurd reserved declared
      · rw [lookup_taken.mpr ⟨_, _, _, split, same, rfl, earliest⟩]

/-! ## All intents -/

theorem usable_concat {before : List Intent} {intent : Intent} :
    TypesUsable target (before ++ [intent]) ↔
      TypesUsable target before ∧ target.intentType intent.name ∉ target.declaredTypes ∧
        target.intentType intent.name ∉ before.map (target.intentType ·.name) := by
  unfold TypesUsable
  rw [List.map_append, List.map_singleton, nodup_concat_iff]
  simp only [List.mem_append, List.mem_singleton, or_imp, forall_and, forall_eq]
  tauto

/-- The walk comes through exactly behind intents with usable types, and carries these. -/
theorem claimTypes_eq_ok {intents : List Intent} {final : List (String × String)} :
    intents.foldlM (claimType target) [] = .ok final ↔
      TypesUsable target intents ∧ final = taken target intents := by
  induction intents using List.reverseRecOn generalizing final with
  | nil => simp [TypesUsable, taken, eq_comm]
  | append_singleton before intent ih =>
      rw [List.foldlM_append, bind_except_eq_ok]
      simp only [List.foldlM_cons, List.foldlM_nil, bind_pure, ih, claimType_eq_ok, usable_concat]
      constructor
      · rintro ⟨_, ⟨usable, rfl⟩, free, fresh, rfl⟩
        exact ⟨⟨usable, free, by simpa [taken] using fresh⟩, by simp [taken]⟩
      · rintro ⟨⟨usable, free, fresh⟩, rfl⟩
        exact ⟨_, ⟨usable, rfl⟩, free, by simpa [taken] using fresh, by simp [taken]⟩

/-- **A model is accepted if its intents have usable types.** -/
theorem checkNames_eq_ok {model : Model} :
    model.checkNames target = .ok () ↔ TypesUsable target model.intents := by
  have walked : model.checkNames target = .ok () ↔
      ∃ final, model.intents.foldlM (claimType target) [] = .ok final := by
    unfold checkNames
    cases model.intents.foldlM (claimType target) [] <;> simp [Except.map]
  rw [walked]
  simp [claimTypes_eq_ok]

/-- **The first intent whose type cannot be used is blamed.** -/
theorem checkNames_eq_error {model : Model} {error : NameError} :
    model.checkNames target = .error error ↔
      ∃ before intent after, model.intents = before ++ intent :: after ∧
        TypesUsable target before ∧ Unusable target before intent error := by
  have walked : model.checkNames target = .error error ↔
      model.intents.foldlM (claimType target) [] = .error error := by
    unfold checkNames
    cases model.intents.foldlM (claimType target) [] <;> simp [Except.map]
  rw [walked, foldlM_except_eq_error_iff]
  constructor
  · rintro ⟨before, intent, after, _, split, ran, failed⟩
    obtain ⟨usable, rfl⟩ := claimTypes_eq_ok.mp ran
    exact ⟨before, intent, after, split, usable, claimType_eq_error.mp failed⟩
  · rintro ⟨before, intent, after, split, usable, unusable⟩
    exact ⟨before, intent, after, _, split, claimTypes_eq_ok.mpr ⟨usable, rfl⟩,
      claimType_eq_error.mpr unusable⟩

/-- The reserved word and its capitalized form become one type; what stands behind them is not
looked at. -/
example :
    let intents : List Intent := [⟨"self", []⟩, ⟨"go", []⟩, ⟨"Self", []⟩, ⟨"NotUnderstood", []⟩]
    Model.checkNames ⟨intents, []⟩ .rust = .error (.clash "self" "Self" "Self_" .rust) := by
  decide +kernel

end VoiceGrammar.Model
