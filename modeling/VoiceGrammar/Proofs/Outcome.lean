/-
# What a computation that reports comes to

The outcome of a `Logged` computation does not depend on what it reports: it is the
outcome of its parts in order, up to the first error (`Logged.outcome_bind`,
`Logged.outcome_foldlM`, `Logged.outcome_mapM`). So loops that report are reasoned
about like loops that do not: a property kept by every step holds behind the loop
(`foldlM_except_invariant`), and a list that is worked through succeeds exactly if
each of its members does (`mapM_eq_pure`).
-/
import Mathlib.Data.List.Forall2
import Mathlib.Data.List.Nodup
import VoiceGrammar.Event

namespace VoiceGrammar

set_option autoImplicit false

variable {ε ε' α β : Type}

/-! ## Lists in step -/

theorem exists_of_forall₂_right {related : α → β → Prop} {items : List α} {values : List β}
    (all : List.Forall₂ related items values) {value : β} (member : value ∈ values) :
    ∃ item ∈ items, related item value := by
  induction all with
  | nil => cases member
  | @cons item first items values one _ ih =>
      rcases List.mem_cons.mp member with rfl | later
      · exact ⟨item, List.mem_cons_self, one⟩
      · obtain ⟨other, listed, found⟩ := ih later
        exact ⟨other, List.mem_cons_of_mem _ listed, found⟩

theorem exists_of_forall₂_left {related : α → β → Prop} {items : List α} {values : List β}
    (all : List.Forall₂ related items values) {item : α} (member : item ∈ items) :
    ∃ value ∈ values, related item value :=
  exists_of_forall₂_right (List.Forall₂.flip all) member

theorem exists_forall₂ {related : α → β → Prop} {items : List α}
    (each : ∀ item ∈ items, ∃ value, related item value) :
    ∃ values, List.Forall₂ related items values := by
  induction items with
  | nil => exact ⟨[], .nil⟩
  | cons item items ih =>
      obtain ⟨value, one⟩ := each item List.mem_cons_self
      obtain ⟨values, rest⟩ := ih fun other member => each other (List.mem_cons_of_mem _ member)
      exact ⟨value :: values, .cons one rest⟩

theorem map_eq_map_of_forall₂ {γ : Type} {f : α → γ} {g : β → γ} {items : List α}
    {values : List β} (all : List.Forall₂ (fun item value => g value = f item) items values) :
    values.map g = items.map f := by
  induction all with
  | nil => rfl
  | cons one _ ih => rw [List.map_cons, List.map_cons, one, ih]

theorem forall₂_of_map_eq_map {γ : Type} {f : α → γ} {g : β → γ} {items : List α}
    {values : List β} (same : values.map g = items.map f) :
    List.Forall₂ (fun item value => g value = f item) items values := by
  have all : List.Forall₂ Eq (values.map g) (items.map f) := by
    rw [List.forall₂_eq_eq_eq]
    exact same
  rw [List.forall₂_map_left_iff, List.forall₂_map_right_iff] at all
  exact List.Forall₂.flip all

/-- What two lists have to do with a third says what they have to do with each other. -/
theorem forall₂_join {γ : Type} {first : α → β → Prop} {second : α → γ → Prop}
    {related : β → γ → Prop}
    (join : ∀ item value other, first item value → second item other → related value other)
    {items : List α} {values : List β} {others : List γ} (all : List.Forall₂ first items values)
    (all' : List.Forall₂ second items others) : List.Forall₂ related values others := by
  induction all generalizing others with
  | nil =>
      cases all'
      exact .nil
  | cons one _ ih =>
      cases all' with
      | cons one' rest => exact .cons (join _ _ _ one one') (ih rest)

theorem exists_of_forall₂_append {related : α → β → Prop} {items more : List α} {values : List β}
    (all : List.Forall₂ related (items ++ more) values) :
    ∃ first later, values = first ++ later ∧ List.Forall₂ related items first ∧
      List.Forall₂ related more later := by
  induction items generalizing values with
  | nil => exact ⟨[], values, rfl, .nil, all⟩
  | cons item items ih =>
      cases all with
      | cons one rest =>
          obtain ⟨first, later, rfl, front, back⟩ := ih rest
          exact ⟨_ :: first, later, rfl, .cons one front, back⟩

/-- Looking for corresponding members finds corresponding members. -/
theorem find?_rel_of_forall₂ {related : α → β → Prop} {p : α → Bool} {q : β → Bool}
    (agree : ∀ item value, related item value → p item = q value) {items : List α}
    {values : List β} (all : List.Forall₂ related items values) :
    Option.Rel related (items.find? p) (values.find? q) := by
  induction all with
  | nil => exact .none
  | @cons item value _ _ one _ ih =>
      have same := agree item value one
      cases holds : p item with
      | true =>
          rw [List.find?_cons_of_pos holds, List.find?_cons_of_pos (same ▸ holds)]
          exact .some one
      | false =>
          rw [List.find?_cons_of_neg (by simp [holds]), List.find?_cons_of_neg (by simp [← same, holds])]
          exact ih

theorem nodup_concat_iff {items : List α} {item : α} :
    (items ++ [item]).Nodup ↔ item ∉ items ∧ items.Nodup := by
  rw [← List.concat_eq_append, List.nodup_concat]

/-! ## Lists of named things -/

section Names

variable {nameOf : α → String} {declared : List α} {item : α}

/-- Where names differ, a name picks out what it stands for. -/
theorem filter_name_eq (apart : (declared.map nameOf).Nodup) (member : item ∈ declared) :
    declared.filter (nameOf · == nameOf item) = [item] := by
  induction declared with
  | nil => cases member
  | cons first declared ih =>
      rw [List.map_cons, List.nodup_cons] at apart
      obtain ⟨fresh, apart⟩ := apart
      rcases List.mem_cons.mp member with rfl | later
      · rw [List.filter_cons_of_pos (by simp)]
        congr 1
        rw [List.filter_eq_nil_iff]
        intro other listed same
        exact fresh (List.mem_map.mpr ⟨other, listed, eq_of_beq same⟩)
      · have other : nameOf first ≠ nameOf item := fun same =>
          fresh (List.mem_map.mpr ⟨item, later, same.symm⟩)
        rw [List.filter_cons_of_neg (by simpa using other)]
        exact ih apart later

theorem find?_name_eq (apart : (declared.map nameOf).Nodup) (member : item ∈ declared) :
    declared.find? (nameOf · == nameOf item) = some item := by
  rw [← List.head?_filter, filter_name_eq apart member, List.head?_cons]

end Names

/-! ## Lists of pairs -/

theorem lookup_eq_none_iff_notMem {pairs : List (String × β)} {key : String} :
    pairs.lookup key = none ↔ key ∉ pairs.map Prod.fst := by
  rw [List.lookup_eq_none_iff]
  constructor
  · intro apart member
    obtain ⟨pair, listed, same⟩ := List.mem_map.mp member
    simpa [same] using apart pair listed
  · intro absent pair listed
    rw [bne_iff_ne]
    rintro rfl
    exact absent (List.mem_map_of_mem listed)

theorem lookup_eq_of_mem_iff {pairs : List (String × β)} {key : String}
    {expected : Option β} (only : ∀ value, (key, value) ∈ pairs ↔ expected = some value) :
    pairs.lookup key = expected := by
  cases found : pairs.lookup key with
  | some value =>
      obtain ⟨before, after, rfl, -⟩ := List.lookup_eq_some_iff.mp found
      exact ((only value).mp (by simp)).symm
  | none =>
      have absent := lookup_eq_none_iff_notMem.mp found
      cases expected with
      | none => rfl
      | some value =>
          exact absurd (List.mem_map_of_mem (f := Prod.fst) ((only value).mpr rfl)) absent

/-- Under distinct names every pair is found by its own. -/
theorem lookup_of_mem {pairs : List (String × β)} (distinct : (pairs.map Prod.fst).Nodup)
    {pair : String × β} (member : pair ∈ pairs) : pairs.lookup pair.1 = some pair.2 := by
  apply lookup_eq_of_mem_iff
  intro value
  constructor
  · intro other
    rw [List.inj_on_of_nodup_map distinct member other rfl]
  · intro same
    rw [← Option.some.inj same]
    exact member

/-! ## Outcomes -/

@[simp] theorem except_pure (value : α) : (pure value : Except ε α) = .ok value := rfl

@[simp] theorem except_ok_bind (value : α) (next : α → Except ε β) :
    Except.ok value >>= next = next value := rfl

@[simp] theorem except_error_bind (error : ε) (next : α → Except ε β) :
    Except.error error >>= next = .error error := rfl

namespace Logged

theorem pure_eq (value : α) : (pure value : Logged ε α) = ⟨[], .ok value⟩ := rfl

theorem bind_eq (first : Logged ε α) (next : α → Logged ε β) : first >>= next = first.bind next :=
  rfl

theorem id_map_eq (logged : Logged ε α) : id <$> logged = logged := by
  rcases logged with ⟨events, error | value⟩ <;> simp [Functor.map, Logged.bind, Logged.ok]

theorem bind_assoc_eq {γ : Type} (logged : Logged ε α) (f : α → Logged ε β) (g : β → Logged ε γ) :
    logged >>= f >>= g = logged >>= fun value => f value >>= g := by
  rcases logged with ⟨events, error | value⟩
  · rfl
  · simp only [bind_eq, Logged.bind]
    split <;> simp_all

instance : LawfulMonad (Logged ε) :=
  LawfulMonad.mk' _ id_map_eq (fun _ _ => by simp [pure_eq, bind_eq, Logged.bind]) bind_assoc_eq

@[simp] theorem outcome_pure (value : α) : (pure value : Logged ε α).outcome = .ok value := rfl

theorem outcome_bind (first : Logged ε α) (next : α → Logged ε β) :
    (first >>= next).outcome = first.outcome >>= fun value => (next value).outcome := by
  rcases first with ⟨events, error | value⟩ <;> rfl

theorem bind_eq_ok {first : Logged ε α} {next : α → Logged ε β} {value : β} :
    (first >>= next).outcome = .ok value ↔
      ∃ middle, first.outcome = .ok middle ∧ (next middle).outcome = .ok value := by
  rcases first with ⟨events, error | middle⟩ <;> simp [bind_eq, Logged.bind]

theorem mapError_eq_ok {f : ε → ε'} {logged : Logged ε α} {value : α} :
    (logged.mapError f).outcome = .ok value ↔ logged.outcome = .ok value := by
  rcases logged with ⟨events, error | found⟩ <;> simp [mapError]

end Logged

theorem bind_except_eq_ok {first : Except ε α} {next : α → Except ε β} {value : β} :
    first >>= next = .ok value ↔ ∃ middle, first = .ok middle ∧ next middle = .ok value := by
  cases first <;> simp

/-- Where a sequence gives a value only if its parts do, a property that every step keeps, and that
may speak of what has been worked through, holds behind the loop. -/
theorem foldlM_gives_invariant {m : Type → Type} [Monad m] (gives : (γ : Type) → m γ → γ → Prop)
    (pureGives : ∀ {γ : Type} {x y : γ}, gives γ (pure x) y → x = y)
    (bindGives : ∀ {γ δ : Type} {first : m γ} {next : γ → m δ} {value : δ},
      gives δ (first >>= next) value → ∃ middle, gives γ first middle ∧ gives δ (next middle) value)
    {step : β → α → m β} (holds : List α → β → Prop)
    (keeps : ∀ before x state next, holds before state → gives β (step state x) next →
      holds (before ++ [x]) next)
    {items : List α} {state final : β} (start : holds [] state)
    (ran : gives β (items.foldlM step state) final) : holds items final := by
  suffices later : ∀ before, holds before state → holds (before ++ items) final from later [] start
  clear start
  induction items generalizing state with
  | nil =>
      intro before here
      obtain rfl := pureGives ran
      simpa using here
  | cons x items ih =>
      intro before here
      rw [List.foldlM_cons] at ran
      obtain ⟨next, first, rest⟩ := bindGives ran
      have := ih rest (before ++ [x]) (keeps before x state next here first)
      simpa using this

theorem foldlM_except_invariant {step : β → α → Except ε β} (holds : List α → β → Prop)
    (keeps : ∀ before x state next, holds before state → step state x = .ok next →
      holds (before ++ [x]) next)
    {items : List α} {state final : β} (start : holds [] state)
    (ran : items.foldlM step state = .ok final) : holds items final :=
  foldlM_gives_invariant (fun _ (outcome : Except ε _) value => outcome = .ok value) Except.ok.inj
    bind_except_eq_ok.mp holds keeps start ran

theorem foldlM_option_invariant {step : β → α → Option β} (holds : List α → β → Prop)
    (keeps : ∀ before x state next, holds before state → step state x = some next →
      holds (before ++ [x]) next)
    {items : List α} {state final : β} (start : holds [] state)
    (ran : items.foldlM step state = some final) : holds items final :=
  foldlM_gives_invariant (fun _ (found : Option _) value => found = some value) Option.some.inj
    Option.bind_eq_some_iff.mp holds keeps start ran

/-- A loop whose steps succeed wherever those of another do, with the same result. -/
theorem foldlM_except_mono {step step' : β → α → Except ε β}
    (mono : ∀ state x next, step state x = .ok next → step' state x = .ok next)
    {items : List α} {state final : β} (ran : items.foldlM step state = .ok final) :
    items.foldlM step' state = .ok final := by
  induction items generalizing state with
  | nil => exact ran
  | cons x items ih =>
      rw [List.foldlM_cons, bind_except_eq_ok] at ran ⊢
      obtain ⟨next, first, rest⟩ := ran
      exact ⟨next, mono state x next first, ih rest⟩

/-- A loop fails where the first of its steps fails. -/
theorem foldlM_except_eq_error_iff {step : β → α → Except ε β} {items : List α} {state : β}
    {error : ε} :
    items.foldlM step state = .error error ↔ ∃ before item after middle,
      items = before ++ item :: after ∧ before.foldlM step state = .ok middle ∧
        step middle item = .error error := by
  constructor
  · intro failed
    induction items generalizing state with
    | nil => cases failed
    | cons item items ih =>
        rw [List.foldlM_cons] at failed
        cases first : step state item with
        | error found =>
            rw [first] at failed
            cases failed
            exact ⟨[], item, items, state, rfl, rfl, first⟩
        | ok next =>
            rw [first] at failed
            obtain ⟨before, culprit, after, middle, rfl, ran, last⟩ := ih failed
            refine ⟨item :: before, culprit, after, middle, rfl, ?_, last⟩
            rw [List.foldlM_cons, first]
            exact ran
  · rintro ⟨before, item, after, middle, rfl, ran, failed⟩
    rw [List.foldlM_append, ran, except_ok_bind, List.foldlM_cons, failed]
    rfl

/-- Where a sequence returns exactly if its parts do, a list that is worked through returns
exactly if each of its members does. -/
theorem mapM_eq_pure {m : Type → Type} [Monad m] [LawfulMonad m]
    (pureInjective : ∀ {γ : Type} {x y : γ}, (pure x : m γ) = pure y → x = y)
    (bindReturns : ∀ {γ δ : Type} {first : m γ} {next : γ → m δ} {value : δ},
      first >>= next = pure value ↔ ∃ middle, first = pure middle ∧ next middle = pure value)
    {f : α → m β} {items : List α} {values : List β} :
    items.mapM f = pure values ↔
      List.Forall₂ (fun item value => f item = pure value) items values := by
  induction items generalizing values with
  | nil =>
      rw [List.mapM_nil, List.forall₂_nil_left_iff]
      exact ⟨fun same => (pureInjective same).symm, fun empty => by rw [empty]⟩
  | cons item items ih =>
      rw [List.mapM_cons, bindReturns, List.forall₂_cons_left_iff]
      constructor
      · rintro ⟨value, first, rest⟩
        obtain ⟨later, rest, same⟩ := bindReturns.mp rest
        exact ⟨value, later, first, ih.mp rest, (pureInjective same).symm⟩
      · rintro ⟨value, later, first, rest, rfl⟩
        exact ⟨value, first, bindReturns.mpr ⟨later, ih.mpr rest, rfl⟩⟩

theorem mapM_eq_of_forall₂ {γ : Type} {m : Type → Type} [Monad m] [LawfulMonad m] {f : α → m γ}
    {g : β → m γ} {items : List α} {values : List β}
    (same : List.Forall₂ (fun item value => f item = g value) items values) :
    items.mapM f = values.mapM g := by
  induction same with
  | nil => rw [List.mapM_nil, List.mapM_nil]
  | cons one _ ih => rw [List.mapM_cons, List.mapM_cons, one, ih]

theorem mapM_congr_mem {m : Type → Type} [Monad m] [LawfulMonad m] {f g : α → m β}
    {items : List α} (same : ∀ item ∈ items, f item = g item) : items.mapM f = items.mapM g :=
  mapM_eq_of_forall₂ (List.forall₂_same.mpr same)

theorem mapM_except_eq_ok {f : α → Except ε β} {items : List α} {values : List β} :
    items.mapM f = .ok values ↔ List.Forall₂ (fun item value => f item = .ok value) items values :=
  mapM_eq_pure (fun same => Except.ok.inj same) bind_except_eq_ok

theorem mapM_option_eq_some {f : α → Option β} {items : List α} {values : List β} :
    items.mapM f = some values ↔ List.Forall₂ (fun item value => f item = some value) items values :=
  mapM_eq_pure (fun same => Option.some.inj same) Option.bind_eq_some_iff

theorem exists_mapM_eq_some {f : α → Option β} {items : List α}
    (each : ∀ item ∈ items, ∃ value, f item = some value) :
    ∃ values, items.mapM f = some values := by
  obtain ⟨values, all⟩ := exists_forall₂ each
  exact ⟨values, mapM_option_eq_some.mpr all⟩

/-- A list fails with the error of one of its members. -/
theorem exists_of_mapM_except_eq_error {f : α → Except ε β} {items : List α} {error : ε}
    (failed : items.mapM f = .error error) : ∃ item ∈ items, f item = .error error := by
  induction items with
  | nil => cases failed
  | cons item items ih =>
      rw [List.mapM_cons] at failed
      cases first : f item with
      | error found =>
          rw [first] at failed
          cases failed
          exact ⟨item, by simp, first⟩
      | ok value =>
          rw [first] at failed
          cases rest : items.mapM f with
          | error found =>
              have same : error = found := by
                simpa [rest, eq_comm] using failed
              obtain ⟨item', member, faulty⟩ := ih (same ▸ rest)
              exact ⟨item', List.mem_cons_of_mem _ member, faulty⟩
          | ok values => simp [rest] at failed

namespace Logged

theorem outcome_foldlM (step : β → α → Logged ε β) (items : List α) (state : β) :
    (items.foldlM step state).outcome =
      items.foldlM (fun state item => (step state item).outcome) state := by
  induction items generalizing state with
  | nil => rfl
  | cons item items ih =>
      rw [List.foldlM_cons, List.foldlM_cons, outcome_bind]
      simp only [ih]

theorem outcome_mapM (f : α → Logged ε β) (items : List α) :
    (items.mapM f).outcome = items.mapM fun item => (f item).outcome := by
  induction items with
  | nil => rfl
  | cons item items ih => simp only [List.mapM_cons, outcome_bind, outcome_pure, ih]; rfl

theorem foldlM_invariant {step : β → α → Logged ε β} (holds : List α → β → Prop)
    (keeps : ∀ before x state next, holds before state → (step state x).outcome = .ok next →
      holds (before ++ [x]) next)
    {items : List α} {state final : β} (start : holds [] state)
    (ran : (items.foldlM step state).outcome = .ok final) : holds items final :=
  foldlM_except_invariant holds keeps start ((outcome_foldlM step items state).symm.trans ran)

theorem foldlM_mono {step step' : β → α → Logged ε β}
    (mono : ∀ state x next, (step state x).outcome = .ok next → (step' state x).outcome = .ok next)
    {items : List α} {state final : β} (ran : (items.foldlM step state).outcome = .ok final) :
    (items.foldlM step' state).outcome = .ok final := by
  rw [outcome_foldlM] at ran ⊢
  exact foldlM_except_mono mono ran

/-- Where it is the item that decides whether a step succeeds, a loop succeeds exactly if every
item lets it. -/
theorem exists_foldlM_eq_ok_iff {step : β → α → Logged ε β} {allowed : α → Prop}
    (each : ∀ state item, (∃ next, (step state item).outcome = .ok next) ↔ allowed item)
    (items : List α) (state : β) :
    (∃ final, (items.foldlM step state).outcome = .ok final) ↔ ∀ item ∈ items, allowed item := by
  induction items generalizing state with
  | nil => exact ⟨fun _ _ none => (List.not_mem_nil none).elim, fun _ => ⟨state, rfl⟩⟩
  | cons item items ih =>
      simp only [List.foldlM_cons, bind_eq_ok, List.forall_mem_cons]
      constructor
      · rintro ⟨final, next, first, rest⟩
        exact ⟨(each state item).mp ⟨next, first⟩, (ih next).mp ⟨final, rest⟩⟩
      · rintro ⟨here, later⟩
        obtain ⟨next, first⟩ := (each state item).mpr here
        obtain ⟨final, rest⟩ := (ih next).mpr later
        exact ⟨final, next, first, rest⟩

theorem mapM_eq_ok {f : α → Logged ε β} {items : List α} {values : List β} :
    (items.mapM f).outcome = .ok values ↔
      List.Forall₂ (fun item value => (f item).outcome = .ok value) items values := by
  rw [outcome_mapM, mapM_except_eq_ok]

end Logged

end VoiceGrammar
