/-
# The names in the text of a decoder

The text of a decoder is made of pieces. The names in it are the labels among them, and
these are exactly the labels of the program (`mem_labels_written`): what the tree of the
program says of an arm or an enumeration is written under the labels of that arm or
enumeration, and under no others.
-/
import VoiceGrammar.Generation

namespace VoiceGrammar

set_option autoImplicit false

namespace Decoder

/-! ## Labels of lines -/

def Piece.label? : Piece → Option String
  | label name => some name
  | _ => none

/-- The labels of a line, in the order in which they are written. -/
def Line.labels (line : Line) : List String :=
  line.filterMap Piece.label?

def labelsIn (lines : List Line) : List String :=
  lines.flatMap Line.labels

section Labels

@[simp] theorem Line.labels_nil : Line.labels [] = [] := rfl

@[simp] theorem Line.labels_fixed (text : String) (line : Line) :
    Line.labels (.fixed text :: line) = line.labels := rfl

@[simp] theorem Line.labels_literal (text : String) (line : Line) :
    Line.labels (.literal text :: line) = line.labels := rfl

@[simp] theorem Line.labels_label (name : String) (line : Line) :
    Line.labels (.label name :: line) = name :: line.labels := rfl

@[simp] theorem Line.labels_append (line more : Line) :
    (line ++ more).labels = line.labels ++ more.labels :=
  List.filterMap_append

theorem Line.labels_commaSeparated (lines : List Line) :
    (commaSeparated lines).labels = labelsIn lines := by
  induction lines with
  | nil => rfl
  | cons line lines ih =>
      cases lines with
      | nil => simp [commaSeparated, labelsIn]
      | cons next lines =>
          rw [commaSeparated, List.intercalate_cons_cons, ← commaSeparated, labels_append,
            labels_append, ih]
          simp [labelsIn]

@[simp] theorem labelsIn_cons (line : Line) (lines : List Line) :
    labelsIn (line :: lines) = line.labels ++ labelsIn lines := rfl

@[simp] theorem labelsIn_nil : labelsIn [] = [] := rfl

@[simp] theorem labelsIn_append (lines more : List Line) :
    labelsIn (lines ++ more) = labelsIn lines ++ labelsIn more :=
  List.flatMap_append

@[simp] theorem mem_labelsIn_map {α : Type} {f : α → Line} {items : List α} {name : String} :
    name ∈ labelsIn (items.map f) ↔ ∃ item ∈ items, name ∈ (f item).labels := by
  rw [labelsIn, List.flatMap_map, List.mem_flatMap]

@[simp] theorem mem_labelsIn_flatMap {α : Type} {f : α → List Line} {items : List α}
    {name : String} :
    name ∈ labelsIn (items.flatMap f) ↔ ∃ item ∈ items, name ∈ labelsIn (f item) := by
  rw [labelsIn, List.flatMap_assoc, List.mem_flatMap]
  rfl

theorem labelsIn_fixedLines (texts : List String) : labelsIn (fixedLines texts) = [] := by
  simp [fixedLines, labelsIn]

end Labels

/-! ## Labels of a program -/

def Reading.labels : Reading → List String
  | .char => []
  | .integer => []
  | .element typeName _ => [typeName]

def Field.labels (field : Field) : List String :=
  field.label :: field.reading.labels

def Arm.labels (arm : Arm) : List String :=
  arm.variant :: arm.fields.flatMap Field.labels

def Enumeration.labels (enumeration : Enumeration) : List String :=
  enumeration.typeName :: enumeration.entries.map (·.label)

/-- The names under which a program has its intents, variables, slots and elements written. -/
def Program.labels (program : Program) : List String :=
  program.arms.flatMap Arm.labels ++ program.enumerations.flatMap Enumeration.labels

/-! ## Rust -/

namespace Rust

theorem labels_type (field : Field) : (TypeRef.ofField field).line.labels = field.reading.labels := by
  rcases field with ⟨key, label, reading, required⟩
  cases reading <;> cases required <;> rfl

theorem labels_value (field : Field) : (Expr.ofField field).line.labels ⊆ field.reading.labels := by
  rcases field with ⟨key, label, reading, required⟩
  cases reading <;> cases required <;> simp [Expr.ofField, Expr.ofReading, Expr.line, Reading.labels]

theorem mem_labels_variant {arm : Arm} {name : String} :
    name ∈ labelsIn (VariantDecl.ofArm arm).lines ↔ name ∈ arm.labels := by
  unfold VariantDecl.ofArm VariantDecl.lines
  rw [List.isEmpty_map]
  split
  · rename_i bare
    simp [Arm.labels, List.isEmpty_iff.mp bare]
  · simp [Arm.labels, Field.labels, labels_type]

theorem labels_arm (arm : Arm) : labelsIn (DecodeArm.ofArm arm).lines ⊆ arm.labels := by
  intro name member
  rw [Arm.labels, List.mem_cons, List.mem_flatMap]
  unfold DecodeArm.ofArm DecodeArm.lines at member
  rw [List.isEmpty_map] at member
  split at member
  · exact .inl (by simpa using member)
  · obtain variant | ⟨field, listed, found⟩ : name = arm.variant ∨ ∃ field ∈ arm.fields,
        name = field.label ∨ name ∈ (Expr.ofField field).line.labels := by
      simpa [Initialiser.line, Initialiser.ofField] using member
    · exact .inl variant
    · exact .inr ⟨field, listed, List.mem_cons.mpr (found.imp_right (labels_value field ·))⟩

theorem mem_labels_enumeration {enumeration : Enumeration} {name : String} :
    name ∈ labelsIn (EnumDecl.ofEnumeration enumeration).lines ↔ name ∈ enumeration.labels := by
  have found : name ∈ labelsIn (EnumDecl.ofEnumeration enumeration).lines ↔
      name = enumeration.typeName ∨ (∃ entry ∈ enumeration.entries, name = entry.label) ∨
      name = enumeration.typeName ∨ ∃ entry ∈ enumeration.entries,
        name = enumeration.typeName ∨ name = entry.label := by
    simp [EnumDecl.ofEnumeration, EnumDecl.lines, ParseArm.line, TextArm.line,
      Line.labels_commaSeparated, labelsIn_fixedLines]
  rw [found, Enumeration.labels, List.mem_cons, List.mem_map]
  grind

/-- The names in the text are the labels of the program. -/
theorem mem_labels_lines {program : Program} {name : String} :
    name ∈ labelsIn (Source.ofProgram program).lines ↔ name ∈ program.labels := by
  simp only [Source.lines, Source.ofProgram, List.flatMap_map, labelsIn_append,
    labelsIn_fixedLines, List.nil_append, List.append_nil, List.mem_append, mem_labelsIn_flatMap,
    mem_labels_variant, mem_labels_enumeration, Program.labels, List.mem_flatMap]
  constructor
  · rintro ((inArm | inEnumeration) | ⟨arm, listed, found⟩)
    · exact .inl inArm
    · exact .inr inEnumeration
    · exact .inl ⟨arm, listed, labels_arm arm found⟩
  · exact .inl

end Rust

/-! ## Kotlin -/

namespace Kotlin

theorem labels_type (field : Field) : (TypeRef.ofField field).line.labels = field.reading.labels := by
  rcases field with ⟨key, label, reading, required⟩
  cases reading <;> cases required <;> rfl

theorem labels_value (field : Field) : (Expr.ofField field).line.labels = field.reading.labels := by
  rcases field with ⟨key, label, reading, required⟩
  cases reading <;> cases required <;> rfl

theorem mem_labels_declaration {arm : Arm} {name : String} :
    name ∈ (IntentDecl.ofArm arm).line.labels ↔ name ∈ arm.labels := by
  unfold IntentDecl.ofArm IntentDecl.line
  rw [List.isEmpty_map]
  split
  · rename_i bare
    simp [Arm.labels, List.isEmpty_iff.mp bare]
  · simp [Line.labels_commaSeparated, Parameter.line, Parameter.ofField, Arm.labels, Field.labels,
      labels_type]

theorem labels_branch (arm : Arm) : (Branch.ofArm arm).line.labels ⊆ arm.labels := by
  intro name member
  rw [Arm.labels, List.mem_cons, List.mem_flatMap]
  unfold Branch.ofArm Branch.line at member
  rw [List.isEmpty_map] at member
  split at member
  · exact .inl (by simpa using member)
  · obtain variant | ⟨field, listed, found⟩ : name = arm.variant ∨ ∃ field ∈ arm.fields,
        name ∈ field.reading.labels := by
      simpa [Line.labels_commaSeparated, labels_value] using member
    · exact .inl variant
    · exact .inr ⟨field, listed, List.mem_cons_of_mem _ found⟩

theorem mem_labels_enumeration {enumeration : Enumeration} {name : String} :
    name ∈ (EnumDecl.ofEnumeration enumeration).line.labels ↔ name ∈ enumeration.labels := by
  simp [EnumDecl.ofEnumeration, EnumDecl.line, Line.labels_commaSeparated, Enumeration.labels,
    eq_comm]

/-- The names in the text are the labels of the program. -/
theorem mem_labels_lines {package : Option String} {program : Program} {name : String} :
    name ∈ labelsIn ((Source.ofProgram program).lines package) ↔ name ∈ program.labels := by
  have unlabelled : labelsIn (packageLines package) = [] := by cases package <;> rfl
  simp only [Source.lines, Source.ofProgram, labelsIn_append, labelsIn_fixedLines, unlabelled,
    List.nil_append, List.append_nil, List.mem_append, List.map_map, mem_labelsIn_map,
    Function.comp_apply, mem_labels_declaration, mem_labels_enumeration, Program.labels,
    List.mem_flatMap]
  constructor
  · rintro ((inArm | ⟨arm, listed, found⟩) | inEnumeration)
    · exact .inl inArm
    · exact .inl ⟨arm, listed, labels_branch arm found⟩
    · exact .inr inEnumeration
  · rintro (inArm | inEnumeration)
    · exact .inl (.inl inArm)
    · exact .inr inEnumeration

end Kotlin

/-! ## Both targets -/

/-- The lines of a decoder. Only Kotlin files have a package. -/
def written (target : Target) (package : Option String) (program : Program) : List Line :=
  match target with
  | .rust => (Rust.Source.ofProgram program).lines
  | .kotlin => (Kotlin.Source.ofProgram program).lines package

theorem mem_labels_written {target : Target} {package : Option String} {program : Program}
    {name : String} : name ∈ labelsIn (written target package program) ↔ name ∈ program.labels := by
  cases target with
  | rust => exact Rust.mem_labels_lines
  | kotlin => exact Kotlin.mem_labels_lines

end Decoder

theorem Model.render?_eq_written (model : Model) (target : Target) (package : Option String) :
    model.render? target package = (Decoder.Program.ofModel? target model).map fun program =>
      Decoder.textOf (Decoder.written target package program) := by
  cases target <;> rfl

end VoiceGrammar
