import StyleSieve.Css.Spelling

/-!
# Progress of the scanner

Every reader of the scanner leaves a suffix of its text, and a step of the scanner
reads at least one character.
-/

namespace StyleSieve.Css

theorem takeString_suffix (quote : Char) (text : List Char) :
    (takeString quote text).2.2 <:+ text := by
  fun_induction takeString quote text with
  | case1 => exact List.suffix_rfl
  | case2 c rest _ => exact List.suffix_cons c rest
  | case3 => exact List.nil_suffix
  | case4 c rest _ _ _ _ value ending after shape ih =>
      rw [shape] at ih
      exact (ih.trans (escaped_suffix rest)).trans (List.suffix_cons c rest)
  | case5 c rest _ _ _ _ ih =>
      exact (ih.trans (List.drop_suffix 1 rest)).trans (List.suffix_cons c rest)
  | case6 => exact List.suffix_rfl
  | case7 c rest _ _ _ value ending after shape ih =>
      rw [shape] at ih
      exact ih.trans (List.suffix_cons c rest)

theorem takeUrl_suffix (text : List Char) : (takeUrl text).2.2 <:+ text := by
  fun_induction takeUrl text with
  | case1 => exact List.suffix_rfl
  | case2 c rest _ => exact List.suffix_cons c rest
  | case3 => exact List.nil_suffix
  | case4 c rest _ _ d later shape _ =>
      have after : d :: later <:+ rest := shape ▸ List.dropWhile_suffix isSpace
      exact ((List.suffix_cons d later).trans after).trans (List.suffix_cons c rest)
  | case5 c rest _ _ d later shape _ =>
      have after : d :: later <:+ rest := shape ▸ List.dropWhile_suffix isSpace
      exact after.trans (List.suffix_cons c rest)
  | case6 c rest _ _ _ value ending after shape ih =>
      rw [shape] at ih
      exact (ih.trans (escaped_suffix rest)).trans (List.suffix_cons c rest)
  | case7 c rest => exact List.suffix_cons c rest
  | case8 c rest _ _ _ _ value ending after shape ih =>
      rw [shape] at ih
      exact ih.trans (List.suffix_cons c rest)

theorem skipBrokenUrl_suffix (text : List Char) : skipBrokenUrl text <:+ text := by
  fun_induction skipBrokenUrl text with
  | case1 => exact List.suffix_rfl
  | case2 rest ih => exact ih.trans ⟨['\\', ')'], rfl⟩
  | case3 rest => exact List.suffix_cons ')' rest
  | case4 c rest _ _ ih => exact ih.trans (List.suffix_cons c rest)

theorem takeComment_suffix (text : List Char) : (takeComment text).2 <:+ text := by
  fun_induction takeComment text with
  | case1 => exact List.suffix_rfl
  | case2 rest => exact ⟨['*', '/'], rfl⟩
  | case3 c rest _ comment after shape ih =>
      rw [shape] at ih
      exact ih.trans (List.suffix_cons c rest)

theorem takeUnicodeRange_suffix (text : List Char) : (takeUnicodeRange text).2.2 <:+ text := by
  unfold takeUnicodeRange
  dsimp only
  split
  · exact (List.drop_suffix _ _).trans (List.drop_suffix _ _)
  · split
    · rename_i rest shape
      have tail : '-' :: rest <:+ text :=
        shape ▸ (List.drop_suffix _ _).trans (List.drop_suffix _ _)
      split
      · exact ((List.drop_suffix _ _).trans (List.suffix_cons '-' rest)).trans tail
      · rw [shape]
        exact tail
    · exact (List.drop_suffix _ _).trans (List.drop_suffix _ _)

theorem suffix_of_append_cons {c : Char} {spelling after rest : List Char}
    (filled : 0 < spelling.length) (same : spelling ++ after = c :: rest) : after <:+ rest := by
  cases spelling with
  | nil => cases filled
  | cons d more =>
      rw [List.cons_append, List.cons.injEq] at same
      exact ⟨more, same.2⟩

/-- A number that a text starts with leaves less than the text. -/
theorem takeNumber?_suffix {c : Char} {rest spelling after : List Char}
    (found : takeNumber? (c :: rest) = some (spelling, after)) : after <:+ rest := by
  obtain ⟨isNumber, same⟩ := takeNumber?_spec found
  exact suffix_of_append_cons isNumber.length_pos same

/-- A name starts with a character of names or an escape. -/
theorem startsIdent_head {c : Char} {rest : List Char} (starts : startsIdent (c :: rest) = true) :
    isNameChar c = true ∨ (c = '\\' ∧ escapes rest = true) := by
  unfold startsIdent at starts
  split at starts <;> simp_all [isNameChar]

/-- A name that a text starts with leaves less than the text. -/
theorem takeName_suffix_of_startsIdent {c : Char} {rest : List Char}
    (starts : startsIdent (c :: rest) = true) : (takeName (c :: rest)).2 <:+ rest := by
  rcases startsIdent_head starts with isName | ⟨rfl, isEscape⟩
  · rw [takeName, if_pos isName]
    exact takeName_suffix rest
  · rw [takeName, isEscape]
    exact (takeName_suffix _).trans (escaped_suffix rest)

theorem scanIdent_suffix {c : Char} {rest : List Char}
    (starts : startsIdent (c :: rest) = true) : (scanIdent (c :: rest)).2 <:+ rest := by
  have read := takeName_suffix_of_startsIdent starts
  unfold scanIdent
  split
  · rename_i name later shape
    rw [shape] at read
    have inner := ((List.dropWhile_suffix isSpace).trans (List.suffix_cons '(' later)).trans read
    have url := (takeUrl_suffix (later.dropWhile isSpace)).trans inner
    dsimp only
    split
    · split <;> (rename_i shape; rw [shape] at url)
      · exact url
      · exact url
      · exact (skipBrokenUrl_suffix _).trans url
    · exact (List.suffix_cons '(' later).trans read
  · rename_i shape
    rw [shape] at read
    exact read

theorem scanNumeric_suffix (spelling rest : List Char) :
    (scanNumeric spelling rest).2 <:+ rest := by
  unfold scanNumeric
  split
  · exact takeName_suffix rest
  · split
    · exact List.suffix_cons _ _
    · exact List.suffix_rfl

theorem scanString_suffix (quote : Char) (rest : List Char) :
    (scanString quote rest).2 <:+ rest := by
  have read := takeString_suffix quote rest
  unfold scanString
  split <;> (rename_i shape; rw [shape] at read; exact read)

theorem scanSymbol_suffix (c : Char) (rest : List Char) : (scanSymbol c rest).2 <:+ rest := by
  unfold scanSymbol
  split
  · split
    · exact takeName_suffix _
    · exact List.suffix_rfl
  · split
    · exact takeName_suffix _
    · exact List.suffix_rfl
  case h_9 => exact scanString_suffix _ _
  case h_10 => exact scanString_suffix _ _
  case h_11 later => exact (takeComment_suffix later).trans (List.suffix_cons '*' later)
  case h_12 later => exact ⟨['!', '-', '-'], rfl⟩
  all_goals first
    | exact List.suffix_rfl
    | exact List.suffix_cons _ _

/-- A step of the scanner leaves a suffix and reads at least one character. -/
theorem scan_suffix (c : Char) (rest : List Char) : (scan c rest).2 <:+ rest := by
  unfold scan
  split
  · exact List.dropWhile_suffix isSpace
  · split
    · exact (takeUnicodeRange_suffix _).trans (List.drop_suffix 1 rest)
    · split
      · exact List.drop_suffix 2 rest
      · split
        · rename_i starts
          exact scanIdent_suffix starts
        · split
          · rename_i spelling after found
            exact (scanNumeric_suffix spelling after).trans (takeNumber?_suffix found)
          · exact scanSymbol_suffix c rest

end StyleSieve.Css
