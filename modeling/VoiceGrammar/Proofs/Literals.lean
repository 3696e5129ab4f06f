/-
# Literals denote their texts

A quoted text reads back as itself, and what stands behind the closing quote is left
over (`Decoder.unquote?_quoteChars`). The reader cannot mistake an escape for the end:
each character is read off the signs that stand for it, whatever follows them
(`Decoder.unquoteBody?_escapeChar`). Where dollars are escaped, every dollar of a
literal stands behind a backslash (`Decoder.bareDollar_quoteChars`).

A character is escaped if it follows a backslash that is not escaped itself
(`Decoder.escaped`). The reader reads up to the first quote that is not
(`Decoder.unquote?_reaches`), and of a literal this is the last one.
-/
import VoiceGrammar.Decoder.Quoted

namespace VoiceGrammar.Decoder

set_option autoImplicit false

/-- A character that is not escaped is neither a quote nor a backslash. -/
theorem escapeChar_cases (dollar : Bool) (c : Char) :
    (∃ sign, escapeChar dollar c = ['\\', sign] ∧ unescape? dollar sign = some c) ∨
      (escapeChar dollar c = [c] ∧ c ≠ '"' ∧ c ≠ '\\') := by
  unfold escapeChar
  split
  · exact .inl ⟨'"', rfl, rfl⟩
  · exact .inl ⟨'\\', rfl, rfl⟩
  · exact .inl ⟨'n', rfl, rfl⟩
  · exact .inl ⟨'t', rfl, rfl⟩
  · exact .inl ⟨'r', rfl, rfl⟩
  · cases dollar with
    | true => exact .inl ⟨'$', rfl, rfl⟩
    | false => exact .inr ⟨rfl, by decide, by decide⟩
  · rename_i quote backslash _ _ _ _
    exact .inr ⟨rfl, quote, backslash⟩

theorem unquoteBody?_escapeChar (dollar : Bool) (c : Char) (rest : List Char) :
    unquoteBody? dollar (escapeChar dollar c ++ rest) =
      (unquoteBody? dollar rest).map fun read => (c :: read.1, read.2) := by
  obtain ⟨sign, escaped, denotes⟩ | ⟨plain, notQuote, notBackslash⟩ := escapeChar_cases dollar c
  · rw [escaped]
    cases read : unquoteBody? dollar rest <;> simp [unquoteBody?, denotes, read]
  · rw [plain]
    simp [unquoteBody?, notBackslash]

/-- **Reading a literal gives its text back**, with whatever follows the literal. -/
theorem unquote?_quoteChars (dollar : Bool) (text rest : List Char) :
    unquote? dollar (quoteChars dollar text ++ rest) = some (text, rest) := by
  suffices body : unquoteBody? dollar (text.flatMap (escapeChar dollar) ++ '"' :: rest) =
      some (text, rest) by simpa [quoteChars, unquote?] using body
  induction text with
  | nil => simp [unquoteBody?]
  | cons c text ih =>
      rw [List.flatMap_cons, List.append_assoc, unquoteBody?_escapeChar, ih]
      rfl

/-- Some dollar does not stand behind a backslash. -/
def bareDollar : List Char → Bool
  | [] => false
  | '\\' :: _ :: rest => bareDollar rest
  | c :: rest => c == '$' || bareDollar rest

theorem bareDollar_escapeChar (c : Char) (rest : List Char) :
    bareDollar (escapeChar true c ++ rest) = bareDollar rest := by
  obtain ⟨sign, escaped, -⟩ | ⟨plain, -, notBackslash⟩ := escapeChar_cases true c
  · rw [escaped]
    rfl
  · have notDollar : c ≠ '$' := by
      rintro rfl
      cases plain
    rw [plain]
    simp [bareDollar, notBackslash, notDollar]

theorem bareDollar_quoteChars (text : List Char) : bareDollar (quoteChars true text) = false := by
  suffices body : bareDollar (text.flatMap (escapeChar true) ++ ['"']) = false by
    simpa [quoteChars, bareDollar] using body
  induction text with
  | nil => rfl
  | cons c text ih => rw [List.flatMap_cons, List.append_assoc, bareDollar_escapeChar, ih]

/-! ## Where a literal ends -/

/-- What follows the text is escaped: it stands behind a backslash that is not escaped itself. -/
def escaped (before : List Char) : Bool :=
  before.foldl (fun escaped c => c == '\\' && !escaped) false

/-- Wherever the sign stands in the text, it is escaped. -/
def OnlyEscaped (sign : Char) (text : List Char) : Prop :=
  ∀ before after, text = before ++ sign :: after → escaped before = true

theorem escaped_pair (c : Char) (before : List Char) :
    escaped ('\\' :: c :: before) = escaped before := by
  simp [escaped]

theorem escaped_cons {c : Char} (plain : c ≠ '\\') (before : List Char) :
    escaped (c :: before) = escaped before := by
  have other : (c == '\\') = false := beq_false_of_ne plain
  simp [escaped, other]

theorem onlyEscaped_of_not_mem {sign : Char} {text : List Char} (absent : sign ∉ text) :
    OnlyEscaped sign text := by
  rintro before after rfl
  exact absurd (List.mem_append_right before List.mem_cons_self) absent

theorem onlyEscaped_pair_iff {sign : Char} (notBackslash : sign ≠ '\\') (c : Char)
    (text : List Char) : OnlyEscaped sign ('\\' :: c :: text) ↔ OnlyEscaped sign text := by
  constructor
  · intro only before after split
    rw [← escaped_pair c]
    exact only _ after (by rw [split]; rfl)
  · intro only before after split
    rcases before with _ | ⟨first, _ | ⟨second, before⟩⟩
    · exact absurd (List.cons.inj split).1.symm notBackslash
    · obtain ⟨rfl, -⟩ := List.cons.inj split
      rfl
    · simp only [List.cons_append, List.cons.injEq] at split
      obtain ⟨rfl, rfl, rest⟩ := split
      rw [escaped_pair]
      exact only before after rest

theorem onlyEscaped_cons_iff {sign c : Char} (plain : c ≠ '\\') (text : List Char) :
    OnlyEscaped sign (c :: text) ↔ c ≠ sign ∧ OnlyEscaped sign text := by
  constructor
  · intro only
    refine ⟨?_, fun before after split => ?_⟩
    · rintro rfl
      exact absurd (only [] text rfl) (by decide)
    · rw [← escaped_cons plain]
      exact only _ after (by rw [split]; rfl)
  · rintro ⟨other, only⟩ before after split
    cases before with
    | nil => exact absurd (List.cons.inj split).1 other
    | cons first before =>
        obtain ⟨rfl, rest⟩ := List.cons.inj split
        rw [escaped_cons plain]
        exact only before after rest

theorem bareDollar_eq_false_iff (text : List Char) :
    bareDollar text = false ↔ OnlyEscaped '$' text := by
  fun_induction bareDollar text with
  | case1 => exact ⟨fun _ => onlyEscaped_of_not_mem List.not_mem_nil, fun _ => rfl⟩
  | case2 c rest ih => rw [ih, onlyEscaped_pair_iff (by decide)]
  | case3 c rest single ih =>
      by_cases backslash : c = '\\'
      · -- no character follows the backslash
        subst backslash
        cases rest with
        | nil => exact ⟨fun _ => onlyEscaped_of_not_mem (by decide), fun _ => rfl⟩
        | cons sign rest => exact absurd rfl (single sign rest rfl)
      · rw [onlyEscaped_cons_iff backslash, ← ih]
        simp

/-- The text that the reader takes off the input ends at the first quote that is not escaped. -/
theorem unquoteBody?_reaches {dollar : Bool} {input text behind : List Char}
    (read : unquoteBody? dollar input = some (text, behind)) :
    ∃ body, input = body ++ '"' :: behind ∧ escaped body = false ∧ OnlyEscaped '"' body := by
  fun_induction unquoteBody? dollar input generalizing text with
  | case1 => cases read
  | case2 rest =>
      cases read
      exact ⟨[], rfl, rfl, onlyEscaped_of_not_mem List.not_mem_nil⟩
  | case3 sign rest ih =>
      obtain ⟨c, -, further⟩ := Option.bind_eq_some_iff.mp read
      obtain ⟨⟨later, after⟩, found, same⟩ := Option.bind_eq_some_iff.mp further
      cases same
      obtain ⟨body, rfl, ends, only⟩ := ih found
      exact ⟨'\\' :: sign :: body, rfl, (escaped_pair sign body).trans ends,
        (onlyEscaped_pair_iff (by decide) sign body).mpr only⟩
  | case4 c rest notQuote single ih =>
      obtain ⟨⟨later, after⟩, found, same⟩ := Option.map_eq_some_iff.mp read
      cases same
      obtain ⟨body, rfl, ends, only⟩ := ih found
      have plain : c ≠ '\\' := by
        intro backslash
        cases body <;> exact single _ _ backslash rfl
      exact ⟨c :: body, rfl, (escaped_cons plain body).trans ends,
        (onlyEscaped_cons_iff plain body).mpr ⟨notQuote, only⟩⟩

theorem unquote?_reaches {dollar : Bool} {input text behind : List Char}
    (read : unquote? dollar input = some (text, behind)) :
    ∃ body, input = '"' :: (body ++ '"' :: behind) ∧ escaped body = false ∧
      OnlyEscaped '"' body := by
  unfold unquote? at read
  split at read
  · obtain ⟨body, rfl, ends⟩ := unquoteBody?_reaches read
    exact ⟨body, rfl, ends⟩
  · cases read

/-! ## Literals as strings -/

theorem toList_quote (dollar : Bool) (text : String) :
    (quote dollar text).toList = quoteChars dollar text.toList := by
  rw [quote, String.toList_ofList]

/-- Line breaks and tabs never stand for themselves. -/
theorem mem_escapeChar {dollar : Bool} {c sign : Char} (member : sign ∈ escapeChar dollar c) :
    sign ≠ '\n' ∧ sign ≠ '\t' ∧ sign ≠ '\r' := by
  have pair : ∀ {last : Char}, last ≠ '\n' ∧ last ≠ '\t' ∧ last ≠ '\r' → sign ∈ ['\\', last] →
      sign ≠ '\n' ∧ sign ≠ '\t' ∧ sign ≠ '\r' := by
    intro last plain inside
    rcases List.mem_cons.mp inside with rfl | behind
    · decide
    · rwa [List.mem_singleton.mp behind]
  unfold escapeChar at member
  split at member
  case h_6 =>
    cases dollar with
    | false =>
        obtain rfl := List.mem_singleton.mp member
        decide
    | true => exact pair (by decide) member
  case h_7 lineFeed tab carriageReturn _ =>
    obtain rfl := List.mem_singleton.mp member
    exact ⟨lineFeed, tab, carriageReturn⟩
  all_goals exact pair (by decide) member

theorem mem_quote {dollar : Bool} {text : String} {sign : Char}
    (member : sign ∈ (quote dollar text).toList) : sign ≠ '\n' ∧ sign ≠ '\t' ∧ sign ≠ '\r' := by
  rw [toList_quote, quoteChars, List.mem_cons, List.mem_append, List.mem_singleton] at member
  rcases member with rfl | inside | rfl
  · decide
  · obtain ⟨c, -, written⟩ := List.mem_flatMap.mp inside
    exact mem_escapeChar written
  · decide

theorem unquote?_quote (dollar : Bool) (text rest : String) :
    unquote? dollar (quote dollar text ++ rest).toList = some (text.toList, rest.toList) := by
  rw [String.toList_append, toList_quote, unquote?_quoteChars]

/-- **A literal denotes its text and ends where it closes.** Whatever follows it, reading it gives
the text back and leaves what follows; the reader takes off the input what reaches up to the first
quote that is not escaped, and within a literal this is the closing one. A literal has no line break
or tab in it and, where dollars start templates, no dollar that is not escaped. So two literals with
what follows them are the same only if the texts and what follows are. -/
theorem literals_read_back (dollar : Bool) (text rest : String) :
    unquote? dollar (quote dollar text ++ rest).toList = some (text.toList, rest.toList) ∧
    (∀ input found behind, unquote? dollar input = some (found, behind) →
      ∃ body, input = '"' :: (body ++ '"' :: behind) ∧ escaped body = false ∧
        OnlyEscaped '"' body) ∧
    (∃ body, (quote dollar text).toList = '"' :: (body ++ ['"']) ∧ escaped body = false ∧
      OnlyEscaped '"' body) ∧
    (∀ sign ∈ (quote dollar text).toList, sign ≠ '\n' ∧ sign ≠ '\t' ∧ sign ≠ '\r') ∧
    (dollar = true → OnlyEscaped '$' (quote dollar text).toList) ∧
    ∀ other behind, quote dollar text ++ rest = quote dollar other ++ behind →
      text = other ∧ rest = behind := by
  refine ⟨unquote?_quote dollar text rest, fun _ _ _ => unquote?_reaches, ?_,
    fun _ => mem_quote, ?_, ?_⟩
  · have alone := unquote?_quote dollar text ""
    rw [String.append_empty] at alone
    exact unquote?_reaches alone
  · rintro rfl
    rw [← bareDollar_eq_false_iff, toList_quote]
    exact bareDollar_quoteChars text.toList
  · intro other behind same
    have read := unquote?_quote dollar text rest
    rw [same, unquote?_quote] at read
    simp only [Option.some.injEq, Prod.mk.injEq, String.toList_inj] at read
    exact ⟨read.1.symm, read.2.symm⟩

end VoiceGrammar.Decoder
