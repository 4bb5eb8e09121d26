import StyleSieve.Proofs.Css.Newlines
import StyleSieve.Proofs.Selector.Thinning

/-!
# Deletions

Normalizing a selector deletes state pseudos from its text.  This module tells what each
deletion takes out, and from between which texts.
-/

namespace StyleSieve.Selector

open Css

/-! ## Leading pseudos -/

theorem leadingPseudo?_spec {text pseudo : List Char} (leads : leadingPseudo? text = some pseudo) :
    (∃ listed ∈ statePseudos, listed.toList = pseudo) ∧ pseudo <+: text := by
  have starts : pseudo.isPrefixOf text = true := by
    have found := List.find?_some leads
    exact found
  exact ⟨List.mem_map.1 (List.mem_of_find?_eq_some leads), List.isPrefixOf_iff_prefix.1 starts⟩

theorem leadingPseudo?_eq_none {text : List Char} :
    leadingPseudo? text = none ↔ ∀ listed ∈ statePseudos, ¬listed.toList <+: text := by
  simp [leadingPseudo?]

theorem leadingPseudo?_normalizeNewlines {text : List Char} (noPseudo : leadingPseudo? text = none) :
    leadingPseudo? (normalizeNewlines text) = none := by
  rw [leadingPseudo?_eq_none] at noPseudo ⊢
  intro listed member starts
  have solid : ∀ listed ∈ statePseudos,
      listed.toList.all (fun c => c != '\n' && c != replacement) = true := by
    decide
  refine noPseudo listed member (prefix_normalizeNewlines ?_ starts)
  simpa using solid listed member

/-! ## Texts without pseudos -/

/-- No state pseudo starts in a text before `more`. -/
def NoneStarts (text more : List Char) : Prop :=
  ∀ front back, text = front ++ back → back ≠ [] → leadingPseudo? (back ++ more) = none

theorem noneStarts_nil (more : List Char) : NoneStarts [] more :=
  fun _ _ split filled => absurd (List.append_eq_nil_iff.1 split.symm).2 filled

theorem noneStarts_cons {c : Char} {rest more : List Char} :
    NoneStarts (c :: rest) more ↔
      leadingPseudo? (c :: (rest ++ more)) = none ∧ NoneStarts rest more := by
  constructor
  · intro noneStarts
    exact ⟨noneStarts [] (c :: rest) rfl (List.cons_ne_nil _ _), fun front back split filled =>
      noneStarts (c :: front) back (by rw [split, List.cons_append]) filled⟩
  · rintro ⟨here, later⟩ front back split filled
    cases front with
    | nil =>
        rw [List.nil_append] at split
        rw [← split]
        exact here
    | cons d more => exact later more back (List.cons.inj split).2 filled

/-- No state pseudo starts in a normalized text if none starts in its source. -/
theorem NoneStarts.normalizeNewlines {text more : List Char} (noneStarts : NoneStarts text more)
    (noFeed : more.head? ≠ some '\n') :
    NoneStarts (normalizeNewlines text) (Css.normalizeNewlines more) := by
  intro first second split filled
  obtain ⟨front, back, rfl, rfl, rfl⟩ := exists_of_normalizeNewlines_eq_append split
  have isFilled : back ≠ [] := by
    rintro rfl
    exact filled rfl
  have here := leadingPseudo?_normalizeNewlines (noneStarts front back rfl isFilled)
  cases more with
  | nil =>
      rw [Css.normalizeNewlines, List.append_nil]
      rwa [List.append_nil] at here
  | cons c later =>
      rwa [normalizeNewlines_append (fun same => noFeed (congrArg some same))] at here

/-- A text has no state pseudo, or it has a first one. -/
theorem noneStarts_or_exists (text : List Char) :
    NoneStarts text [] ∨ ∃ segment pseudo after, text = segment ++ (pseudo ++ after) ∧
      NoneStarts segment (pseudo ++ after) ∧ leadingPseudo? (pseudo ++ after) = some pseudo := by
  induction text with
  | nil => exact .inl (noneStarts_nil [])
  | cons c rest ih =>
      cases leads : leadingPseudo? (c :: rest) with
      | some pseudo =>
          obtain ⟨after, whole⟩ := (leadingPseudo?_spec leads).2
          exact .inr ⟨[], pseudo, after, whole.symm, noneStarts_nil _, whole ▸ leads⟩
      | none =>
          rcases ih with noneStarts | ⟨segment, pseudo, after, rfl, noneStarts, first⟩
          · exact .inl (noneStarts_cons.2 ⟨by rwa [List.append_nil], noneStarts⟩)
          · exact .inr
              ⟨c :: segment, pseudo, after, rfl, noneStarts_cons.2 ⟨leads, noneStarts⟩, first⟩

theorem leadingPseudo_pos {text pseudo : List Char} (leads : leadingPseudo? text = some pseudo) :
    0 < pseudo.length := by
  obtain ⟨⟨listed, member, rfl⟩, _⟩ := leadingPseudo?_spec leads
  have all : ∀ listed ∈ statePseudos, 0 < listed.toList.length := by decide
  exact all listed member

/-! ## Deletions -/

theorem withoutPseudos_skip (skip : Nat) (text : List Char) :
    withoutPseudos skip text = withoutPseudos 0 (text.drop skip) := by
  induction text generalizing skip with
  | nil => simp [withoutPseudos]
  | cons c rest ih =>
      cases skip with
      | zero => rfl
      | succ skip => rw [withoutPseudos, ih, List.drop_succ_cons]

theorem withoutPseudos_append {text more : List Char} (noneStarts : NoneStarts text more) :
    withoutPseudos 0 (text ++ more) = text ++ withoutPseudos 0 more := by
  induction text with
  | nil => rfl
  | cons c rest ih =>
      obtain ⟨here, later⟩ := noneStarts_cons.1 noneStarts
      rw [List.cons_append, withoutPseudos, here]
      exact congrArg (c :: ·) (ih later)

theorem withoutPseudos_pseudo {pseudo after : List Char}
    (leads : leadingPseudo? (pseudo ++ after) = some pseudo) :
    withoutPseudos 0 (pseudo ++ after) = withoutPseudos 0 after := by
  have filled := leadingPseudo_pos leads
  cases pseudo with
  | nil => cases filled
  | cons c more =>
      rw [List.cons_append] at leads ⊢
      rw [withoutPseudos, leads]
      dsimp only
      rw [withoutPseudos_skip, List.length_cons, Nat.add_sub_cancel, List.drop_left]

/-- A state pseudo that is deleted from a text: the text since the one before it, the pseudo
itself, and the text after it. -/
structure Deletion where
  segment : List Char
  pseudo : List Char
  after : List Char
  deriving Repr

namespace Deletion

/-- The name of a deleted pseudo. -/
def name (deletion : Deletion) : List Char :=
  deletion.pseudo.dropWhile (· == ':')

/-- What is left of the text after a deletion. -/
def left (deletion : Deletion) : List Char :=
  withoutPseudos 0 deletion.after

end Deletion

/-- The deletions from the text after its first `skip` characters, where `segment` is the text
since the last one. -/
def deletionsFrom (segment : List Char) (skip : Nat) : List Char → List Deletion
  | [] => []
  | c :: rest =>
      match skip with
      | skip + 1 => deletionsFrom segment skip rest
      | 0 =>
          match leadingPseudo? (c :: rest) with
          | some pseudo =>
              ⟨segment, pseudo, rest.drop (pseudo.length - 1)⟩ ::
                deletionsFrom [] (pseudo.length - 1) rest
          | none => deletionsFrom (segment ++ [c]) 0 rest

/-- The deletions by which a text is normalized. -/
def deletions (text : List Char) : List Deletion :=
  deletionsFrom [] 0 text

theorem deletionsFrom_skip (segment : List Char) (skip : Nat) (text : List Char) :
    deletionsFrom segment skip text = deletionsFrom segment 0 (text.drop skip) := by
  induction text generalizing skip with
  | nil => simp [deletionsFrom]
  | cons c rest ih =>
      cases skip with
      | zero => rfl
      | succ skip => rw [deletionsFrom, ih, List.drop_succ_cons]

theorem deletionsFrom_append {text more : List Char} (noneStarts : NoneStarts text more)
    (segment : List Char) :
    deletionsFrom segment 0 (text ++ more) = deletionsFrom (segment ++ text) 0 more := by
  induction text generalizing segment with
  | nil => rw [List.nil_append, List.append_nil]
  | cons c rest ih =>
      obtain ⟨here, later⟩ := noneStarts_cons.1 noneStarts
      rw [List.cons_append, deletionsFrom, here]
      dsimp only
      rw [ih later, List.append_assoc, List.singleton_append]

/-- The first deletion from a text takes out its first state pseudo. -/
theorem deletions_first {segment pseudo after : List Char}
    (noneStarts : NoneStarts segment (pseudo ++ after))
    (leads : leadingPseudo? (pseudo ++ after) = some pseudo) :
    deletions (segment ++ (pseudo ++ after)) = ⟨segment, pseudo, after⟩ :: deletions after := by
  have filled := leadingPseudo_pos leads
  rw [deletions, deletionsFrom_append noneStarts, List.nil_append]
  cases pseudo with
  | nil => cases filled
  | cons c more =>
      rw [List.cons_append] at leads ⊢
      rw [deletionsFrom, leads]
      dsimp only
      rw [deletionsFrom_skip, List.length_cons, Nat.add_sub_cancel, List.drop_left, deletions]

end StyleSieve.Selector
