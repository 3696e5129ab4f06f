/-
# The text of a JSON tree

`Json.Node.Written` says how a tree can be written, as a grammar over characters: it knows
nothing of readers or fuel. What is read at the start of a text is written there
(`Json.Node.readers_written`), and a text that is read as a whole is one tree between blanks
(`Json.Node.written_of_parse?`). So every item of a list in a document stands in its text, and a
number literal in the tree has the digits that stand there.
-/
import Mathlib.Data.List.Forall2
import VoiceGrammar.Json.Node

namespace VoiceGrammar.Json

set_option autoImplicit false

/-! ## Number literals -/

namespace NumberLiteral

/-- One or more digits. -/
def AreDigits (digits : List Char) : Prop :=
  digits ≠ [] ∧ ∀ c ∈ digits, Text.isDigit c = true

/-- A literal without decimals and exponent. -/
def IsInteger (literal : NumberLiteral) : Prop :=
  literal.decimals = none ∧ literal.exponent = none

/-- How decimals are written. -/
inductive WrittenDecimals : Option (List Char) → List Char → Prop where
  | none : WrittenDecimals none []
  | some {digits : List Char} (digital : AreDigits digits) :
      WrittenDecimals (some digits) ('.' :: digits)

/-- How an exponent is written. -/
inductive WrittenExponent : Option (Bool × List Char) → List Char → Prop where
  | none : WrittenExponent none []
  | plain {mark : Char} {digits : List Char} (marked : mark = 'e' ∨ mark = 'E')
      (digital : AreDigits digits) : WrittenExponent (some (false, digits)) (mark :: digits)
  | plus {mark : Char} {digits : List Char} (marked : mark = 'e' ∨ mark = 'E')
      (digital : AreDigits digits) : WrittenExponent (some (false, digits)) (mark :: '+' :: digits)
  | minus {mark : Char} {digits : List Char} (marked : mark = 'e' ∨ mark = 'E')
      (digital : AreDigits digits) : WrittenExponent (some (true, digits)) (mark :: '-' :: digits)

/-- The sign and the whole digits of a literal. -/
def integerPart (literal : NumberLiteral) : List Char :=
  (if literal.negative then ['-'] else []) ++ literal.whole

/-- How a literal is written. No zero leads its whole digits, unless it is the only one. -/
structure Written (literal : NumberLiteral) (text : List Char) : Prop where
  digital : AreDigits literal.whole
  unpadded : literal.whole.head? = some '0' → literal.whole = ['0']
  spelled : ∃ decimals exponent, WrittenDecimals literal.decimals decimals ∧
    WrittenExponent literal.exponent exponent ∧
    text = literal.integerPart ++ decimals ++ exponent

/-- An integer literal is its sign and its digits. -/
theorem Written.eq_integerPart {literal : NumberLiteral} {text : List Char}
    (written : literal.Written text) (integer : literal.IsInteger) : text = literal.integerPart := by
  obtain ⟨decimals, exponent, point, mark, rfl⟩ := written.spelled
  rw [integer.1] at point
  rw [integer.2] at mark
  cases point
  cases mark
  rw [List.append_nil, List.append_nil]

end NumberLiteral

namespace Node

open NumberLiteral (AreDigits WrittenDecimals WrittenExponent)

theorem digits?_eq_some {text digits rest : List Char} (read : digits? text = some (digits, rest)) :
    AreDigits digits ∧ text = digits ++ rest := by
  simp only [digits?] at read
  split at read
  · cases read
  · rename_i found
    cases read
    refine ⟨⟨by simpa using found, fun c member => ?_⟩, List.takeWhile_append_dropWhile.symm⟩
    exact List.all_eq_true.mp List.all_takeWhile c member

theorem decimals?_eq_some {text rest : List Char} {decimals : Option (List Char)}
    (read : decimals? text = some (decimals, rest)) :
    ∃ written, WrittenDecimals decimals written ∧ text = written ++ rest := by
  unfold decimals? at read
  split at read
  · obtain ⟨⟨digits, behind⟩, found, same⟩ := Option.map_eq_some_iff.mp read
    cases same
    obtain ⟨digital, rfl⟩ := digits?_eq_some found
    exact ⟨_, .some digital, rfl⟩
  · cases read
    exact ⟨[], .none, rfl⟩

theorem exponent?_eq_some {text rest : List Char} {exponent : Option (Bool × List Char)}
    (read : exponent? text = some (exponent, rest)) :
    ∃ written, WrittenExponent exponent written ∧ text = written ++ rest := by
  unfold exponent? at read
  split at read
  · split at read
    · rename_i mark later isMark
      have marked : mark = 'e' ∨ mark = 'E' := by simpa using isMark
      obtain ⟨⟨digits, behind⟩, found, same⟩ := Option.map_eq_some_iff.mp read
      cases same
      obtain ⟨digital, cut⟩ := digits?_eq_some found
      split at cut
      · obtain rfl := cut
        exact ⟨_, .plus marked digital, rfl⟩
      · obtain rfl := cut
        exact ⟨_, .minus marked digital, rfl⟩
      · obtain rfl := cut
        exact ⟨_, .plain marked digital, rfl⟩
    · cases read
      exact ⟨[], .none, rfl⟩
  · cases read
    exact ⟨[], .none, rfl⟩

theorem number?_eq_some {text rest : List Char} {literal : NumberLiteral}
    (read : number? text = some (literal, rest)) :
    ∃ written, literal.Written written ∧ text = written ++ rest := by
  unfold number? at read
  split at read
  rename_i negative unsigned signed
  have sign : text = (if negative then ['-'] else []) ++ unsigned := by
    split at signed
    · cases signed
      rfl
    · cases signed
      rfl
  obtain ⟨⟨whole, behind⟩, found, afterWhole⟩ := Option.bind_eq_some_iff.mp read
  obtain ⟨digital, cutWhole⟩ := digits?_eq_some found
  dsimp only at afterWhole
  split at afterWhole
  · cases afterWhole
  · rename_i unpadded
    obtain ⟨⟨decimals, later⟩, found, afterDecimals⟩ := Option.bind_eq_some_iff.mp afterWhole
    obtain ⟨writtenDecimals, point, cutDecimals⟩ := decimals?_eq_some found
    dsimp only at afterDecimals
    obtain ⟨⟨exponent, last⟩, found, made⟩ := Option.bind_eq_some_iff.mp afterDecimals
    obtain ⟨writtenExponent, mark, cutExponent⟩ := exponent?_eq_some found
    cases made
    refine ⟨_, ⟨digital, ?_, writtenDecimals, writtenExponent, point, mark, rfl⟩, ?_⟩
    · intro zero
      match whole, zero with
      | [_], rfl => rfl
      | _ :: _ :: _, rfl => simp at unpadded
    · rw [sign, cutWhole, cutDecimals, cutExponent]
      simp [NumberLiteral.integerPart]

/-! ## Strings -/

/-- How a character of a string is written. -/
inductive WrittenUnit : Unit16 → List Char → Prop where
  | plain {c : Char} (shown : 0x20 ≤ c.toNat) (unquoted : c ≠ '"') (unescaped : c ≠ '\\') :
      WrittenUnit (.char c) [c]
  | escaped {sign c : Char} (meant : escape? sign = some c) : WrittenUnit (.char c) ['\\', sign]
  | code {a b c d : Char} {value : Nat} (meant : Text.hexValue? [a, b, c, d] = some value) :
      WrittenUnit (.code value) ['\\', 'u', a, b, c, d]

/-- How a string is written: its characters between quotes. -/
def WrittenString (text : Option String) (chars : List Char) : Prop :=
  ∃ units pieces, List.Forall₂ WrittenUnit units pieces ∧
    text = (units? units).map String.ofList ∧ chars = '"' :: pieces.flatten ++ ['"']

theorem stringBody?_eq_some {text rest : List Char} {units : List Unit16}
    (read : stringBody? text = some (units, rest)) :
    ∃ pieces, List.Forall₂ WrittenUnit units pieces ∧ text = pieces.flatten ++ '"' :: rest := by
  induction text using stringBody?.induct generalizing units with
  | case1 => cases read
  | case2 behind =>
      cases read
      exact ⟨[], .nil, rfl⟩
  | case3 a b c d behind ih =>
      obtain ⟨value, meant, read⟩ := Option.bind_eq_some_iff.mp read
      obtain ⟨⟨later, last⟩, found, same⟩ := Option.bind_eq_some_iff.mp read
      cases same
      obtain ⟨pieces, each, rfl⟩ := ih found
      exact ⟨_ :: pieces, .cons (.code meant) each, rfl⟩
  | case4 sign behind uncoded ih =>
      rw [stringBody?.eq_4 sign behind uncoded] at read
      obtain ⟨c, meant, read⟩ := Option.bind_eq_some_iff.mp read
      obtain ⟨⟨later, last⟩, found, same⟩ := Option.bind_eq_some_iff.mp read
      cases same
      obtain ⟨pieces, each, rfl⟩ := ih found
      exact ⟨_ :: pieces, .cons (.escaped meant) each, rfl⟩
  | case5 c behind unquoted uncoded unescaped control =>
      rw [stringBody?.eq_5 c behind unquoted uncoded unescaped, if_pos control] at read
      cases read
  | case6 c behind unquoted uncoded unescaped shown ih =>
      rw [stringBody?.eq_5 c behind unquoted uncoded unescaped, if_neg shown] at read
      obtain ⟨⟨later, last⟩, found, same⟩ := Option.map_eq_some_iff.mp read
      cases same
      -- A backslash at the very end of the text is no character of a string.
      have plain : c ≠ '\\' := by
        rintro rfl
        cases behind with
        | nil => cases found
        | cons sign rest => exact unescaped sign rest rfl rfl
      obtain ⟨pieces, each, rfl⟩ := ih found
      exact ⟨[c] :: pieces, .cons (.plain (Nat.not_lt.mp shown) unquoted plain) each, rfl⟩

theorem string?_eq_some {text rest : List Char} {found : Option String}
    (read : string? text = some (found, rest)) :
    ∃ chars, WrittenString found chars ∧ '"' :: text = chars ++ rest := by
  obtain ⟨⟨units, behind⟩, body, same⟩ := Option.map_eq_some_iff.mp read
  cases same
  obtain ⟨pieces, each, rfl⟩ := stringBody?_eq_some body
  refine ⟨_, ⟨units, pieces, each, rfl, rfl⟩, ?_⟩
  simp

/-! ## Trees -/

def AreBlanks (chars : List Char) : Prop :=
  ∀ c ∈ chars, isBlank c = true

/-- How a list is written between its brackets: nothing but blanks, or items with commas between
them. -/
inductive WrittenList {α : Type} (writtenItem : α → List Char → Prop) :
    List α → List Char → Prop where
  | none {blanks : List Char} (blank : AreBlanks blanks) : WrittenList writtenItem [] blanks
  | one {item : α} {chars : List Char} (apart : writtenItem item chars) :
      WrittenList writtenItem [item] chars
  | more {item next : α} {items : List α} {chars rest : List Char}
      (apart : writtenItem item chars) (later : WrittenList writtenItem (next :: items) rest) :
      WrittenList writtenItem (item :: next :: items) (chars ++ ',' :: rest)

mutual

/-- How a tree is written. -/
inductive Written : Node → List Char → Prop where
  | null : Written .null ['n', 'u', 'l', 'l']
  | true : Written (.bool true) ['t', 'r', 'u', 'e']
  | false : Written (.bool false) ['f', 'a', 'l', 's', 'e']
  | number {literal : NumberLiteral} {chars : List Char} (spelled : literal.Written chars) :
      Written (.number literal) chars
  | string {text : Option String} {chars : List Char} (spelled : WrittenString text chars) :
      Written (.string text) chars
  | array {items : List Node} {inside : List Char} (listed : WrittenList WrittenApart items inside) :
      Written (.array items) ('[' :: inside ++ [']'])
  | object {members : List (Option String × Node)} {inside : List Char}
      (listed : WrittenList WrittenMember members inside) :
      Written (.object members) ('\x7b' :: inside ++ ['\x7d'])

/-- How a tree is written between blanks. -/
inductive WrittenApart : Node → List Char → Prop where
  | intro {node : Node} {before chars behind : List Char} (blankBefore : AreBlanks before)
      (written : Written node chars) (blankBehind : AreBlanks behind) :
      WrittenApart node (before ++ chars ++ behind)

/-- How a member of an object is written. -/
inductive WrittenMember : Option String × Node → List Char → Prop where
  | intro {key : Option String} {value : Node} {before name between chars : List Char}
      (blankBefore : AreBlanks before) (named : WrittenString key name)
      (blankBetween : AreBlanks between) (apart : WrittenApart value chars) :
      WrittenMember (key, value) (before ++ name ++ between ++ ':' :: chars)

end

theorem exists_blanks (text : List Char) :
    ∃ blanks, AreBlanks blanks ∧ text = blanks ++ skipBlanks text :=
  ⟨text.takeWhile isBlank, fun c member => List.all_eq_true.mp List.all_takeWhile c member,
    List.takeWhile_append_dropWhile.symm⟩

theorem expect?_eq_some {word text rest : List Char} (read : expect? word text = some rest) :
    text = word ++ rest := by
  unfold expect? at read
  split at read
  · rename_i starts
    cases read
    exact (List.prefix_iff_eq_append.mp <| List.isPrefixOf_iff_prefix.mp starts).symm
  · cases read

theorem listEnd?_eq_some {closing : Char} {text : List Char} {found : ListEnd}
    (read : listEnd? closing text = some found) :
    ∃ blanks, AreBlanks blanks ∧
      ((∃ rest, found = .closed rest ∧ text = blanks ++ closing :: rest) ∨
        ∃ rest, found = .more rest ∧ text = blanks ++ ',' :: rest) := by
  obtain ⟨blanks, blank, cut⟩ := exists_blanks text
  refine ⟨blanks, blank, ?_⟩
  unfold listEnd? at read
  split at read
  · rename_i rest shown
    cases read
    exact .inr ⟨rest, rfl, shown ▸ cut⟩
  · rename_i c rest _ shown
    split at read
    · rename_i closes
      cases read
      obtain rfl := eq_of_beq closes
      exact .inl ⟨rest, rfl, shown ▸ cut⟩
    · cases read
  · cases read

/-! ## What is read is written -/

/-- What `value?` reads with this fuel is written at the start of the text, behind blanks. -/
def ValueWritten (fuel : Nat) : Prop :=
  ∀ {text rest : List Char} {node : Node}, value? fuel text = some (node, rest) →
    ∃ before chars, AreBlanks before ∧ Written node chars ∧ text = before ++ chars ++ rest

def ItemsWritten (fuel : Nat) : Prop :=
  ∀ {text rest : List Char} {items : List Node}, items? fuel text = some (items, rest) →
    items ≠ [] ∧ ∃ inside, WrittenList WrittenApart items inside ∧ text = inside ++ ']' :: rest

def MembersWritten (fuel : Nat) : Prop :=
  ∀ {text rest : List Char} {members : List (Option String × Node)},
    members? fuel text = some (members, rest) →
    members ≠ [] ∧ ∃ inside, WrittenList WrittenMember members inside ∧ text = inside ++ '\x7d' :: rest

variable {fuel : Nat}

theorem value?_step (items : ItemsWritten fuel) (members : MembersWritten fuel) :
    ValueWritten (fuel + 1) := by
  intro text rest node read
  obtain ⟨before, blank, cut⟩ := exists_blanks text
  suffices ∃ chars, Written node chars ∧ skipBlanks text = chars ++ rest by
    obtain ⟨chars, written, shown⟩ := this
    exact ⟨before, chars, blank, written, by rw [List.append_assoc, ← shown, ← cut]⟩
  unfold value? at read
  generalize skipBlanks text = shown at read ⊢
  split at read
  · obtain ⟨⟨found, behind⟩, read, same⟩ := Option.map_eq_some_iff.mp read
    cases same
    obtain ⟨chars, spelled, cut⟩ := string?_eq_some read
    exact ⟨chars, .string spelled, cut⟩
  · rename_i inside
    obtain ⟨blanks, blank, cut⟩ := exists_blanks inside
    split at read
    · rename_i behind closed
      cases read
      exact ⟨_, .array (.none blank), by rw [cut, closed]; simp⟩
    · obtain ⟨⟨listed, behind⟩, read, same⟩ := Option.map_eq_some_iff.mp read
      cases same
      obtain ⟨-, spelled, written, rfl⟩ := items read
      exact ⟨_, .array written, by simp⟩
  · rename_i inside
    obtain ⟨blanks, blank, cut⟩ := exists_blanks inside
    split at read
    · rename_i behind closed
      cases read
      exact ⟨_, .object (.none blank), by rw [cut, closed]; simp⟩
    · obtain ⟨⟨listed, behind⟩, read, same⟩ := Option.map_eq_some_iff.mp read
      cases same
      obtain ⟨-, spelled, written, rfl⟩ := members read
      exact ⟨_, .object written, by simp⟩
  · split at read
    · rename_i behind word
      cases read
      exact ⟨_, .null, expect?_eq_some word⟩
    · split at read
      · rename_i behind word
        cases read
        exact ⟨_, .true, expect?_eq_some word⟩
      · split at read
        · rename_i behind word
          cases read
          exact ⟨_, .false, expect?_eq_some word⟩
        · obtain ⟨⟨literal, behind⟩, read, same⟩ := Option.map_eq_some_iff.mp read
          cases same
          obtain ⟨chars, spelled, cut⟩ := number?_eq_some read
          exact ⟨chars, .number spelled, cut⟩

theorem items?_step (value : ValueWritten fuel) (items : ItemsWritten fuel) :
    ItemsWritten (fuel + 1) := by
  intro text rest listed read
  unfold items? at read
  obtain ⟨⟨item, behind⟩, first, afterItem⟩ := Option.bind_eq_some_iff.mp read
  obtain ⟨before, chars, blankBefore, written, cut⟩ := value first
  obtain ⟨found, ended, afterEnd⟩ := Option.bind_eq_some_iff.mp afterItem
  obtain ⟨blanks, blank, ⟨last, rfl, stop⟩ | ⟨last, rfl, comma⟩⟩ := listEnd?_eq_some ended
  · cases afterEnd
    refine ⟨by simp, _, .one (.intro blankBefore written blank), ?_⟩
    simp [cut, stop]
  · obtain ⟨⟨later, final⟩, rest, same⟩ := Option.bind_eq_some_iff.mp afterEnd
    cases same
    obtain ⟨filled, inside, writtenLater, rfl⟩ := items rest
    cases later with
    | nil => exact absurd rfl filled
    | cons next later =>
        refine ⟨by simp, _, .more (.intro blankBefore written blank) writtenLater, ?_⟩
        simp [cut, comma]

theorem members?_step (value : ValueWritten fuel) (members : MembersWritten fuel) :
    MembersWritten (fuel + 1) := by
  intro text rest listed read
  obtain ⟨before, blankBefore, cut⟩ := exists_blanks text
  unfold members? at read
  split at read
  · rename_i behind quote
    obtain ⟨⟨key, afterKey⟩, named, read⟩ := Option.bind_eq_some_iff.mp read
    obtain ⟨name, spelled, cutName⟩ := string?_eq_some named
    obtain ⟨between, blankBetween, cutBetween⟩ := exists_blanks afterKey
    dsimp only at read
    split at read
    · rename_i afterColon colon
      obtain ⟨⟨item, afterValue⟩, first, read⟩ := Option.bind_eq_some_iff.mp read
      obtain ⟨blanks, chars, blankValue, written, cutValue⟩ := value first
      dsimp only at read
      obtain ⟨found, ended, afterEnd⟩ := Option.bind_eq_some_iff.mp read
      have start : text = before ++ name ++ between ++ ':' :: (blanks ++ chars) ++ afterValue := by
        rw [cut, quote, cutName, cutBetween, colon, cutValue]
        simp
      obtain ⟨tail, blank, ⟨last, rfl, stop⟩ | ⟨last, rfl, comma⟩⟩ := listEnd?_eq_some ended
      · cases afterEnd
        refine ⟨by simp, _, .one (.intro blankBefore spelled blankBetween
          (.intro blankValue written blank)), ?_⟩
        simp [start, stop]
      · obtain ⟨⟨later, final⟩, rest, same⟩ := Option.bind_eq_some_iff.mp afterEnd
        cases same
        obtain ⟨filled, inside, writtenLater, rfl⟩ := members rest
        cases later with
        | nil => exact absurd rfl filled
        | cons next later =>
            refine ⟨by simp, _, .more (.intro blankBefore spelled blankBetween
              (.intro blankValue written blank)) writtenLater, ?_⟩
            simp [start, comma]
    · cases read
  · cases read

theorem readers_written (fuel : Nat) :
    ValueWritten fuel ∧ ItemsWritten fuel ∧ MembersWritten fuel := by
  induction fuel with
  | zero =>
      refine ⟨?_, ?_, ?_⟩ <;> intro text rest found read <;> cases read
  | succ fuel ih =>
      obtain ⟨value, items, members⟩ := ih
      exact ⟨value?_step items members, items?_step value items, members?_step value members⟩

/-- **A text that is read is one tree between blanks.** -/
theorem written_of_parse? {text : String} {node : Node} (parsed : parse? text = some node) :
    WrittenApart node text.toList := by
  obtain ⟨⟨root, rest⟩, read, ended⟩ := Option.bind_eq_some_iff.mp parsed
  obtain ⟨before, chars, blankBefore, written, cut⟩ := (readers_written _).1 read
  dsimp only at ended
  split at ended
  · rename_i nothing
    cases ended
    obtain ⟨behind, blankBehind, cutRest⟩ := exists_blanks rest
    rw [List.isEmpty_iff.mp nothing, List.append_nil] at cutRest
    rw [cut, cutRest]
    exact .intro blankBefore written blankBehind
  · cases ended

/-! ## A part of a tree is written within it -/

variable {chars inside : List Char} {node item : Node}

/-- The tree is written somewhere in these characters. -/
def WrittenWithin (node : Node) (chars : List Char) : Prop :=
  ∃ written, Written node written ∧ written <:+: chars

theorem WrittenWithin.mono {longer : List Char} (within : WrittenWithin node chars)
    (part : chars <:+: longer) : WrittenWithin node longer := by
  obtain ⟨written, spelled, held⟩ := within
  exact ⟨written, spelled, held.trans part⟩

theorem WrittenApart.within (apart : WrittenApart node chars) : WrittenWithin node chars := by
  cases apart with
  | @intro _ before written behind _ spelled _ => exact ⟨written, spelled, before, behind, rfl⟩

theorem WrittenMember.within {entry : Option String × Node} (member : WrittenMember entry chars) :
    WrittenWithin entry.2 chars := by
  cases member with
  | @intro key value before name between written _ _ _ apart =>
      refine apart.within.mono ⟨before ++ name ++ between ++ [':'], [], ?_⟩
      simp

theorem WrittenList.exists_within {α : Type} {writtenItem : α → List Char → Prop} {items : List α}
    (listed : WrittenList writtenItem items inside) :
    ∀ item ∈ items, ∃ chars, writtenItem item chars ∧ chars <:+: inside := by
  induction listed with
  | none blank => simp
  | @one item chars apart => simpa using ⟨chars, apart, List.infix_refl chars⟩
  | @more item next items chars rest apart later ih =>
      rw [List.forall_mem_cons]
      refine ⟨⟨chars, apart, (List.prefix_append chars _).isInfix⟩, fun item member => ?_⟩
      obtain ⟨written, spelled, held⟩ := ih item member
      exact ⟨written, spelled, held.trans ⟨chars ++ [','], [], by simp⟩⟩

/-- The items of an array and the values of an object. -/
def children : Node → List Node
  | .array items => items
  | .object members => members.map (·.2)
  | _ => []

theorem WrittenWithin.child {child : Node} (within : WrittenWithin node chars)
    (member : child ∈ node.children) : WrittenWithin child chars := by
  obtain ⟨written, spelled, held⟩ := within
  cases spelled with
  | @array items inside listed =>
      obtain ⟨chars, apart, part⟩ := listed.exists_within child member
      exact apart.within.mono ((part.trans ⟨['['], [']'], rfl⟩).trans held)
  | @object members inside listed =>
      obtain ⟨entry, entered, rfl⟩ := List.mem_map.mp member
      obtain ⟨chars, apart, part⟩ := listed.exists_within entry entered
      exact apart.within.mono ((part.trans ⟨['\x7b'], ['\x7d'], rfl⟩).trans held)
  | null => cases member
  | true => cases member
  | false => cases member
  | number _ => cases member
  | string _ => cases member

end Node

end VoiceGrammar.Json
