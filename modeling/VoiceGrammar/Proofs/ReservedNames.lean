/-
# Names that avoid the reserved words

The reserved words of both targets begin with a small letter (`Target.reserved_small`). A
capitalized word does not, so it is not reserved, and it still tells which word it was.
Hence escaped names are never reserved (`escape_not_mem`), and two names are escaped
alike only if one is a reserved word and the other its capitalized form
(`escape_eq_escape_iff`).

A compiled model has escaped names throughout (`Grammar.avoids_of_compile`). The labels of
its decoder are made from them by `Target.identifier`, which keeps clear of the one
word that a capital letter does not free in Rust (`Decoder.Program.labels_allowed`).
-/
import VoiceGrammar.Proofs.DecoderPrograms
import VoiceGrammar.Proofs.WrittenNames

namespace VoiceGrammar

set_option autoImplicit false

/-! ## Capital letters -/

theorem exists_letter {c : Char} (small : c.isLower = true) : ∃ n < 26, c = Char.ofNat (97 + n) := by
  have bounds : 97 ≤ c.toNat ∧ c.toNat ≤ 122 := by
    have between : (decide (c.val ≥ 97) && decide (c.val ≤ 122)) = true := small
    simpa [UInt32.le_iff_toNat_le] using between
  refine ⟨c.toNat - 97, by omega, ?_⟩
  rw [Nat.add_sub_cancel' bounds.1, Char.ofNat_toNat]

namespace Text

theorem upperCase_small {c : Char} (small : c.isLower = true) : upperCase c = [c.toUpper] := by
  have letters : ∀ n < 26, upperCase (Char.ofNat (97 + n)) = [(Char.ofNat (97 + n)).toUpper] := by
    decide +kernel
  obtain ⟨n, bound, rfl⟩ := exists_letter small
  exact letters n bound

theorem toUpper_not_small {c : Char} (small : c.isLower = true) : c.toUpper.isLower = false := by
  have letters : ∀ n < 26, (Char.ofNat (97 + n)).toUpper.isLower = false := by decide +kernel
  obtain ⟨n, bound, rfl⟩ := exists_letter small
  exact letters n bound

theorem toUpper_inj {c d : Char} (small : c.isLower = true) (small' : d.isLower = true)
    (same : c.toUpper = d.toUpper) : c = d := by
  have letters : ∀ m < 26, ∀ n < 26,
      (Char.ofNat (97 + m)).toUpper = (Char.ofNat (97 + n)).toUpper → m = n := by decide +kernel
  obtain ⟨m, bound, rfl⟩ := exists_letter small
  obtain ⟨n, bound', rfl⟩ := exists_letter small'
  rw [letters m bound n bound' same]

end Text

/-! ## Escaped names -/

namespace ReservedWords

/-- The word begins with a small letter. -/
def startsSmall (word : String) : Bool :=
  word.toList.head?.any Char.isLower

/-- Every word begins with a small letter. -/
def Small (reserved : ReservedWords) : Prop :=
  ∀ word ∈ reserved.words, startsSmall word = true

theorem toList_capitalize {word : String} (small : startsSmall word = true) :
    ∃ c rest, word.toList = c :: rest ∧ c.isLower = true ∧
      (capitalize word).toList = c.toUpper :: rest := by
  unfold startsSmall at small
  cases spelled : word.toList with
  | nil => simp [spelled] at small
  | cons c rest =>
      have letter : c.isLower = true := by simpa [spelled] using small
      refine ⟨c, rest, rfl, letter, ?_⟩
      rw [capitalize, spelled]
      simp only [Text.upperCase_small letter, List.singleton_append, String.toList_ofList]

theorem not_startsSmall_capitalize {word : String} (small : startsSmall word = true) :
    startsSmall (capitalize word) = false := by
  obtain ⟨c, rest, -, letter, capital⟩ := toList_capitalize small
  rw [startsSmall, capital]
  exact Text.toUpper_not_small letter

theorem capitalize_inj {word other : String} (small : startsSmall word = true)
    (small' : startsSmall other = true) (same : capitalize word = capitalize other) :
    word = other := by
  obtain ⟨c, rest, spelled, letter, capital⟩ := toList_capitalize small
  obtain ⟨d, rest', spelled', letter', capital'⟩ := toList_capitalize small'
  rw [same, capital', List.cons.injEq] at capital
  rw [← String.toList_inj, spelled, spelled', Text.toUpper_inj letter' letter capital.1, capital.2]

variable {reserved : ReservedWords} {name other : String}

theorem escape_of_mem (member : name ∈ reserved.words) : reserved.escape name = capitalize name := by
  simp [escape, contains, member]

theorem escape_of_not_mem (free : name ∉ reserved.words) : reserved.escape name = name := by
  simp [escape, contains, free]

theorem capitalize_not_mem (small : reserved.Small) (member : name ∈ reserved.words) :
    capitalize name ∉ reserved.words := by
  intro again
  have capital := not_startsSmall_capitalize (small name member)
  rw [small _ again] at capital
  cases capital

theorem escape_not_mem (small : reserved.Small) (name : String) :
    reserved.escape name ∉ reserved.words := by
  by_cases member : name ∈ reserved.words
  · rw [escape_of_mem member]
    exact capitalize_not_mem small member
  · rwa [escape_of_not_mem member]

theorem escape_escape (small : reserved.Small) (name : String) :
    reserved.escape (reserved.escape name) = reserved.escape name :=
  escape_of_not_mem (escape_not_mem small name)

/-- One is a reserved word, the other is not, and is that word capitalized. -/
def Merged (reserved : ReservedWords) (word name : String) : Prop :=
  word ∈ reserved.words ∧ name ∉ reserved.words ∧ name = capitalize word

theorem Merged.escape_eq (merged : reserved.Merged name other) :
    reserved.escape name = reserved.escape other := by
  obtain ⟨member, free, same⟩ := merged
  rw [escape_of_mem member, escape_of_not_mem free, same]

/-- Two names are escaped alike only where a reserved word meets its capitalized form. -/
theorem escape_eq_escape_iff (small : reserved.Small) :
    reserved.escape name = reserved.escape other ↔
      name = other ∨ reserved.Merged name other ∨ reserved.Merged other name := by
  constructor
  · intro same
    by_cases member : name ∈ reserved.words <;> by_cases member' : other ∈ reserved.words
    · rw [escape_of_mem member, escape_of_mem member'] at same
      exact .inl (capitalize_inj (small _ member) (small _ member') same)
    · rw [escape_of_mem member, escape_of_not_mem member'] at same
      exact .inr (.inl ⟨member, member', same.symm⟩)
    · rw [escape_of_not_mem member, escape_of_mem member'] at same
      exact .inr (.inr ⟨member', member, same⟩)
    · rw [escape_of_not_mem member, escape_of_not_mem member'] at same
      exact .inl same
  · rintro (rfl | merged | merged)
    · rfl
    · exact merged.escape_eq
    · exact merged.escape_eq.symm

end ReservedWords

theorem Target.reserved_small (target : Target) : target.reserved.Small := by
  unfold ReservedWords.Small
  cases target <;> decide +kernel

/-! ## Names in compiled models -/

/-- No name of a slot, an element or a variable is reserved. -/
structure Model.Avoids (model : Model) (reserved : ReservedWords) : Prop where
  slots : ∀ slot ∈ model.slots, slot.name ∉ reserved.words
  elements : ∀ slot ∈ model.slots, ∀ element ∈ slot.elements, element ∉ reserved.words
  vars : ∀ intent ∈ model.intents, ∀ v ∈ intent.vars, v.name ∉ reserved.words

theorem Grammar.avoids_of_compile {grammar : Grammar} {reserved : ReservedWords} {model : Model}
    (small : reserved.Small) (compiled : (grammar.compile reserved).outcome = .ok model) :
    model.Avoids reserved := by
  obtain ⟨slots, -⟩ := compile_eq_ok compiled
  constructor
  · intro slot member
    rw [slots] at member
    obtain ⟨declared, -, rfl⟩ := List.mem_map.mp member
    exact ReservedWords.escape_not_mem small declared.1
  · intro slot member element listed
    rw [slots] at member
    obtain ⟨declared, -, rfl⟩ := List.mem_map.mp member
    obtain ⟨raw, -, rfl⟩ := List.mem_map.mp listed
    exact ReservedWords.escape_not_mem small raw
  · intro intent member v carried
    obtain ⟨declared, -, built⟩ := exists_declaration compiled member
    obtain ⟨o, -, named, -⟩ := Intent.exists_mention built carried
    rw [← named]
    exact ReservedWords.escape_not_mem small o.name

/-! ## Names in decoders -/

namespace Target

/-- The name can be used in a program of the target. -/
def Allows (target : Target) (name : String) : Prop :=
  name ∉ target.reserved.words ∧ (target = rust → name ≠ "Self")

theorem allows_identifier {target : Target} {name : String}
    (free : name ∉ target.reserved.words) : target.Allows (target.identifier name) := by
  cases target with
  | kotlin => exact ⟨free, nofun⟩
  | rust =>
      by_cases self : name = "Self"
      · subst self
        exact ⟨by decide +kernel, fun _ => by decide⟩
      · have kept : identifier rust name = name := by simp [identifier, self]
        rw [kept]
        exact ⟨free, fun _ => self⟩

theorem allows_intentType (target : Target) (intent : String) :
    target.Allows (target.intentType intent) :=
  allows_identifier (ReservedWords.escape_not_mem target.reserved_small intent)

end Target

namespace Decoder

variable {target : Target} {model : Model}

theorem Field.labels_allowed (avoids : model.Avoids target.reserved) {v : Variable} {field : Field}
    (free : v.name ∉ target.reserved.words) (written : Field.ofVariable? target model v = some field) :
    ∀ name ∈ field.labels, target.Allows name := by
  obtain ⟨reading, read, rfl⟩ := Option.map_eq_some_iff.mp written
  intro name member
  rcases List.mem_cons.mp member with rfl | typed
  · exact Target.allows_identifier free
  · cases type : v.type with
    | char =>
        rw [type] at read
        cases read
        cases typed
    | integer =>
        rw [type] at read
        cases read
        cases typed
    | element position =>
        rw [type] at read
        obtain ⟨slot, found, rfl⟩ := Option.map_eq_some_iff.mp read
        rw [List.mem_singleton.mp typed]
        exact Target.allows_identifier (avoids.slots slot (List.mem_of_getElem? found))

/-- The labels of the decoder of a model that avoids the reserved words can all be used. -/
theorem Program.labels_allowed (avoids : model.Avoids target.reserved) {program : Program}
    (made : Program.ofModel? target model = some program) :
    ∀ name ∈ program.labels, target.Allows name := by
  obtain ⟨enumerations, arms⟩ := Program.ofModel?_eq_some.mp made
  intro name member
  rcases List.mem_append.mp member with inArm | inEnumeration
  · obtain ⟨arm, listed, found⟩ := List.mem_flatMap.mp inArm
    obtain ⟨intent, held, one⟩ := exists_of_forall₂_right arms listed
    obtain ⟨-, variant, fields⟩ := Arm.ofIntent?_eq_some.mp one
    rcases List.mem_cons.mp found with rfl | inField
    · rw [variant]
      exact target.allows_intentType intent.name
    · obtain ⟨field, listed, found⟩ := List.mem_flatMap.mp inField
      obtain ⟨v, carried, written⟩ := exists_of_forall₂_right fields listed
      exact Field.labels_allowed avoids (avoids.vars intent held v carried) written name found
  · rw [enumerations] at inEnumeration
    obtain ⟨enumeration, listed, found⟩ := List.mem_flatMap.mp inEnumeration
    obtain ⟨slot, held, rfl⟩ := List.mem_map.mp listed
    rcases List.mem_cons.mp found with rfl | inEntries
    · exact Target.allows_identifier (avoids.slots slot held)
    · obtain ⟨entry, listed, rfl⟩ := List.mem_map.mp inEntries
      obtain ⟨element, kept, rfl⟩ := List.mem_map.mp listed
      exact Target.allows_identifier (avoids.elements slot held element (mem_distinct.mp kept))

end Decoder

/-- **No reserved word is written as a name.** In a model compiled for a target no slot, element or
variable has a reserved name, and of the names in the text of its decoder, which are the labels of
the program, none is reserved; neither is the type of any intent. Escaping twice is escaping once,
and two names are escaped alike only if they are the same or one is a reserved word and the other
that word with a capital letter. -/
theorem Target.reserved_words_never_written (target : Target) :
    (∀ (grammar : Grammar) (model : Model),
      (grammar.compile target.reserved).outcome = .ok model →
      model.Avoids target.reserved ∧
      ∃ program, Decoder.Program.ofModel? target model = some program ∧ ∀ package,
        model.render? target package =
          some (Decoder.textOf (Decoder.written target package program)) ∧
        ∀ name, (name ∈ Decoder.labelsIn (Decoder.written target package program) ↔
            name ∈ program.labels) ∧
          (name ∈ program.labels → target.Allows name)) ∧
    (∀ intent, target.Allows (target.intentType intent)) ∧
    (∀ name, target.reserved.escape (target.reserved.escape name) = target.reserved.escape name) ∧
    ∀ name other, target.reserved.escape name = target.reserved.escape other ↔
      name = other ∨ target.reserved.Merged name other ∨ target.reserved.Merged other name := by
  have small := target.reserved_small
  refine ⟨fun grammar model compiled => ?_, target.allows_intentType,
    ReservedWords.escape_escape small, fun _ _ => ReservedWords.escape_eq_escape_iff small⟩
  have avoids := Grammar.avoids_of_compile small compiled
  obtain ⟨program, made⟩ := Decoder.Program.exists_ofModel? compiled target
  refine ⟨avoids, program, made, fun package => ⟨?_, fun name => ⟨?_, ?_⟩⟩⟩
  · rw [model.render?_eq_written, made]
    rfl
  · exact Decoder.mem_labels_written
  · exact Decoder.Program.labels_allowed avoids made name

/-- A slot, an element and two variables with reserved names, one of which stays a word of the
target under a capital letter. -/
theorem Target.reserved_words_never_written_self :
    let grammar : Grammar := ⟨[("type", ["self", "move"])], [("self", ["$type:self is $Type:match"])]⟩
    let vars : List Variable := [⟨"Self", .element 0, true⟩, ⟨"Match", .element 0, true⟩]
    let model : Model := ⟨[⟨"self", vars⟩], [⟨"Type", ["Self", "Move"]⟩]⟩
    (grammar.compile Target.rust.reserved).outcome = .ok model ∧
    model.Avoids Target.rust.reserved ∧
    (∃ program, Decoder.Program.ofModel? .rust model = some program ∧
      "Self_" ∈ Decoder.labelsIn (Decoder.written .rust none program) ∧
      Target.rust.Allows "Self_") ∧
    Target.rust.intentType "self" = "Self_" := by
  intro grammar vars model
  have compiled : (grammar.compile Target.rust.reserved).outcome = .ok model := by decide +kernel
  obtain ⟨avoids, program, made, text⟩ := (Target.reserved_words_never_written .rust).1 _ _ compiled
  have labels : (Decoder.Program.ofModel? .rust model).map (·.labels.contains "Self_") =
      some true := by decide +kernel
  have held : "Self_" ∈ program.labels := by simpa [made] using labels
  obtain ⟨-, names⟩ := text none
  exact ⟨compiled, avoids, ⟨program, made, (names _).1.mpr held, (names _).2 held⟩, by decide +kernel⟩

end VoiceGrammar
