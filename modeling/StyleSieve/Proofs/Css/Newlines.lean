import StyleSieve.Proofs.Css.Soundness

/-!
# Normalized newlines

Newlines are normalized one by one: a text and what follows it are normalized apart, unless a
carriage return and a line feed meet where they do.
-/

namespace StyleSieve.Css

/-- Texts are normalized one by one where no line feed can follow a carriage return. -/
theorem normalizeNewlines_append {c : Char} (noFeed : c ≠ '\n') (first rest : List Char) :
    normalizeNewlines (first ++ c :: rest) =
      normalizeNewlines first ++ normalizeNewlines (c :: rest) := by
  fun_induction normalizeNewlines first with
  | case1 => rfl
  | case2 more ih => rw [List.cons_append, List.cons_append, normalizeNewlines, ih, List.cons_append]
  | case3 d more other ih =>
      rw [List.cons_append, normalizeNewlines, ih, List.cons_append]
      intro later isReturn same
      cases more with
      | nil => exact noFeed (List.cons.inj same).1
      | cons e others =>
          cases (List.cons.inj same).1
          exact other others isReturn rfl

theorem normalizeNewlines_append_of_last {first : List Char}
    (noReturn : first.getLast? ≠ some '\r') (second : List Char) :
    normalizeNewlines (first ++ second) = normalizeNewlines first ++ normalizeNewlines second := by
  fun_induction normalizeNewlines first with
  | case1 => rfl
  | case2 rest ih =>
      rw [List.cons_append, List.cons_append, normalizeNewlines, ih, List.cons_append]
      intro isLast
      apply noReturn
      rw [List.getLast?_cons_cons, List.getLast?_cons, isLast]
      rfl
  | case3 c rest other ih =>
      rw [List.cons_append, normalizeNewlines, ih, List.cons_append]
      · intro isLast
        apply noReturn
        rw [List.getLast?_cons, isLast]
        rfl
      · intro later isReturn same
        cases rest with
        | nil => exact noReturn (congrArg some isReturn)
        | cons d others =>
            cases (List.cons.inj same).1
            exact other others isReturn rfl

theorem Clean.normalize_append {text : List Char} (clean : Clean text) (rest : List Char) :
    normalizeNewlines (text ++ rest) = text ++ normalizeNewlines rest := by
  induction text with
  | nil => rfl
  | cons c more ih =>
      have noReturn := clean c List.mem_cons_self
      simp only [isClean, Bool.and_eq_true, bne_iff_ne] at noReturn
      rw [List.cons_append, normalizeNewlines, ih clean.tail]
      · simp [noReturn]
      · exact fun _ isReturn => absurd isReturn noReturn.1.2

/-- What a normalized text is cut into is what its source is cut into, normalized. -/
theorem exists_of_normalizeNewlines_eq_append {text first second : List Char}
    (cut : normalizeNewlines text = first ++ second) :
    ∃ front back, text = front ++ back ∧ normalizeNewlines front = first ∧
      normalizeNewlines back = second := by
  fun_induction normalizeNewlines text generalizing first with
  | case1 =>
      obtain ⟨rfl, rfl⟩ := List.append_eq_nil_iff.1 cut.symm
      exact ⟨[], [], rfl, rfl, rfl⟩
  | case2 rest ih =>
      cases first with
      | nil => exact ⟨[], _, rfl, rfl, by rw [normalizeNewlines, cut, List.nil_append]⟩
      | cons d more =>
          obtain ⟨rfl, others⟩ := List.cons.inj cut
          obtain ⟨front, back, rfl, rfl, rfl⟩ := ih others
          exact ⟨'\r' :: '\n' :: front, back, rfl, by rw [normalizeNewlines], rfl⟩
  | case3 c rest other ih =>
      cases first with
      | nil => exact ⟨[], _, rfl, rfl, by rw [normalizeNewlines, cut, List.nil_append]; exact other⟩
      | cons d more =>
          obtain ⟨rfl, others⟩ := List.cons.inj cut
          obtain ⟨front, back, rfl, rfl, rfl⟩ := ih others
          refine ⟨c :: front, back, rfl, ?_, rfl⟩
          rw [normalizeNewlines]
          rintro later isReturn rfl
          exact other (later ++ back) isReturn rfl

/-- A text that holds nothing to be normalized starts a text when it starts the normalized
text. -/
theorem prefix_normalizeNewlines {start : List Char}
    (solid : ∀ c ∈ start, c ≠ '\n' ∧ c ≠ replacement) {text : List Char}
    (starts : start <+: normalizeNewlines text) : start <+: text := by
  fun_induction normalizeNewlines text generalizing start with
  | case1 => exact starts
  | case2 rest ih =>
      cases start with
      | nil => exact List.nil_prefix
      | cons d more => exact absurd (List.cons_prefix_cons.1 starts).1 (solid d List.mem_cons_self).1
  | case3 c rest other ih =>
      cases start with
      | nil => exact List.nil_prefix
      | cons d more =>
          obtain ⟨same, later⟩ := List.cons_prefix_cons.1 starts
          obtain ⟨⟨noFeed, noReplacement⟩, others⟩ := List.forall_mem_cons.1 solid
          refine List.cons_prefix_cons.2 ⟨?_, ih others later⟩
          split at same
          · exact absurd same noFeed
          · split at same
            · exact absurd same noReplacement
            · exact same

end StyleSieve.Css
