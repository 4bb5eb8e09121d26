import Mathlib.Data.List.Basic

/-!
# Computations that may fail

When a computation that is made up of others succeeds, and what is told apart by its value
and its error alone.
-/

namespace StyleSieve

variable {ε δ α β : Type}

/-! ## Success -/

theorem bind_eq_ok {first : Except ε α} {next : α → Except ε β} {result : β}
    (done : (first >>= next) = .ok result) :
    ∃ value, first = .ok value ∧ next value = .ok result := by
  cases first with
  | error cause => cases done
  | ok value => exact ⟨value, rfl, done⟩

theorem map_eq_ok {image : α → β} {outcome : Except ε α} {result : β}
    (mapped : outcome.map image = .ok result) :
    ∃ value, outcome = .ok value ∧ image value = result := by
  cases outcome with
  | error failure => cases mapped
  | ok value => exact ⟨value, rfl, Except.ok.inj mapped⟩

theorem mapError_eq_ok {wrap : ε → δ} {outcome : Except ε α} {value : α} :
    outcome.mapError wrap = .ok value ↔ outcome = .ok value := by
  cases outcome with
  | ok other => exact ⟨fun same => Except.ok.inj same ▸ rfl, fun same => Except.ok.inj same ▸ rfl⟩
  | error failure => exact ⟨nofun, nofun⟩

theorem mapM_eq_ok (image : α → Except ε β) {values : List α} {results : List β} :
    values.mapM image = .ok results ↔ values.map image = results.map .ok := by
  induction values generalizing results with
  | nil =>
      rw [List.mapM_nil, List.map_nil, eq_comm (a := []), List.map_eq_nil_iff]
      exact ⟨fun same => (Except.ok.inj same).symm, fun same => congrArg Except.ok same.symm⟩
  | cons value rest ih =>
      rw [List.mapM_cons, List.map_cons]
      constructor
      · intro mapped
        obtain ⟨result, first, mapped⟩ := bind_eq_ok mapped
        obtain ⟨others, later, mapped⟩ := bind_eq_ok mapped
        cases mapped
        rw [first, ih.mp later, List.map_cons]
      · intro same
        cases results with
        | nil => cases same
        | cons result others =>
            obtain ⟨first, later⟩ := List.cons.inj same
            rw [first, ih.mpr later]
            rfl

theorem exists_mapM (image : α → Except ε β) {values : List α}
    (succeed : ∀ value ∈ values, (image value).isOk = true) :
    ∃ results, values.mapM image = .ok results := by
  induction values with
  | nil => exact ⟨[], rfl⟩
  | cons value rest ih =>
      obtain ⟨others, later⟩ := ih fun other among => succeed other (List.mem_cons_of_mem _ among)
      have here := succeed value List.mem_cons_self
      cases first : image value with
      | error failure => rw [first] at here; cases here
      | ok result => exact ⟨result :: others, by rw [List.mapM_cons, first, later]; rfl⟩

/-- What is mapped and its images belong together. -/
theorem exists_of_mapM {image : α → Except ε β} {values : List α} {results : List β}
    (mapped : values.mapM image = .ok results) :
    (∀ value ∈ values, ∃ result ∈ results, image value = .ok result) ∧
      ∀ result ∈ results, ∃ value ∈ values, image value = .ok result := by
  have same := (mapM_eq_ok image).mp mapped
  constructor
  · intro value among
    have member : image value ∈ results.map .ok := same ▸ List.mem_map_of_mem among
    obtain ⟨result, inResults, isImage⟩ := List.mem_map.mp member
    exact ⟨result, inResults, isImage.symm⟩
  · intro result among
    have member : .ok result ∈ values.map image := same ▸ List.mem_map_of_mem among
    exact List.mem_map.mp member

/-! ## Values -/

theorem eq_ok_of_toOption {outcome : Except ε α} {value : α}
    (told : outcome.toOption = some value) : outcome = .ok value := by
  cases outcome with
  | error failure => cases told
  | ok given => exact congrArg Except.ok (Option.some.inj told)

theorem toOption_map (change : α → β) (result : Except ε α) :
    (result.map change).toOption = result.toOption.map change := by
  cases result <;> rfl

theorem toOption_mapError (change : ε → δ) (result : Except ε α) :
    (result.mapError change).toOption = result.toOption := by
  cases result <;> rfl

theorem toOption_cons (first : Except ε α) (later : Except ε (List α)) :
    (do let here ← first; let more ← later; return here :: more).toOption =
      first.toOption.bind fun here => later.toOption.map (here :: ·) := by
  cases first with
  | error error => rfl
  | ok here => cases later <;> rfl

/-! ## Errors -/

/-- The error of a computation that fails. -/
def errorOf? {ε α : Type} : Except ε α → Option ε
  | .error error => some error
  | .ok _ => none

theorem errorOf?_map (change : α → β) (result : Except ε α) :
    errorOf? (result.map change) = errorOf? result := by
  cases result <;> rfl

theorem errorOf?_mapError (change : ε → δ) (result : Except ε α) :
    errorOf? (result.mapError change) = (errorOf? result).map change := by
  cases result <;> rfl

theorem errorOf?_cons (first : Except ε α) (later : Except ε (List α)) :
    errorOf? (do let here ← first; let more ← later; return here :: more) =
      (errorOf? first).or (errorOf? later) := by
  cases first with
  | error error => rfl
  | ok here => cases later <;> rfl

/-- A computation is known by its error and its value. -/
theorem ext_of_errorOf? {first second : Except ε α}
    (errors : errorOf? first = errorOf? second) (values : first.toOption = second.toOption) :
    first = second := by
  cases first with
  | error failure =>
      cases second with
      | error other => exact congrArg Except.error (Option.some.inj errors)
      | ok value => cases values
  | ok value =>
      cases second with
      | error failure => cases values
      | ok other => exact congrArg Except.ok (Option.some.inj values)

end StyleSieve
