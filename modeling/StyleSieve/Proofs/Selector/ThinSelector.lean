import StyleSieve.Proofs.Selector.ThinCompound

/-!
# Selectors without their state pseudos

A selector all of whose compound selectors keep something is read from thinner
atoms as the same chain of compound selectors, each with some of its conditions
left out.
-/

namespace StyleSieve.Selector

open Css

/-- Whether a selector is another one with some of its conditions left out. -/
inductive Thinner : Complex → Complex → Prop
  | compound {fewer simples : List Simple} (sub : fewer.Sublist simples) :
      Thinner (.compound fewer) (.compound simples)
  | combined {left whole : Complex} {fewer simples : List Simple} (combinator : Combinator)
      (outer : Thinner left whole) (sub : fewer.Sublist simples) :
      Thinner (.combined left combinator fewer) (.combined whole combinator simples)

/-! ## Chains -/

section Chain

variable {combinator : Combinator} {read : Complex} {ended : Bool}
  {gaps start rest later : List Atom} {next : Atom} {found : ReadSelector}

theorem readChain_of_gaps (areGaps : ∀ atom ∈ gaps, atom.component.isGap = true) :
    readChain combinator read ended gaps = (.ok ⟨combinator, read, ended⟩, []) := by
  have skipped : gaps.dropWhile (·.component.isGap) = [] :=
    List.dropWhile_eq_nil_iff.mpr areGaps
  rw [readChain]
  split
  · rfl
  · rename_i something
    rw [skipped] at something
    cases something

theorem takeWhile_gaps (areGaps : ∀ atom ∈ gaps, atom.component.isGap = true)
    (notGap : next.component.isGap = false) :
    (gaps ++ next :: rest).takeWhile (·.component.isGap) = gaps := by
  rw [List.takeWhile_append_of_pos areGaps, List.takeWhile_cons, notGap]
  exact List.append_nil gaps

theorem dropWhile_gaps (areGaps : ∀ atom ∈ gaps, atom.component.isGap = true)
    (notGap : next.component.isGap = false) :
    (gaps ++ next :: rest).dropWhile (·.component.isGap) = next :: rest := by
  rw [List.dropWhile_append_of_pos areGaps, List.dropWhile_cons, notGap]
  rfl

/-- What follows a compound selector decides how the chain goes on. -/
theorem readChain_append (areGaps : ∀ atom ∈ gaps, atom.component.isGap = true)
    (notGap : next.component.isGap = false) :
    readChain combinator read ended (gaps ++ next :: rest) =
      if ended || next.component.isDelim "," then
        (.ok ⟨combinator, read, ended⟩, next :: rest)
      else
        match combinatorOf? next.component with
        | some sign =>
            match readCompound rest with
            | (.error failure, later) => (.error failure, later)
            | (.ok (simples, stops), later) =>
                readChain combinator (.combined read sign simples) stops later
        | none =>
            if gaps.any (·.component.isWhitespace) then
              match readCompound (next :: rest) with
              | (.error failure, later) => (.error failure, later)
              | (.ok (simples, stops), later) =>
                  readChain combinator (.combined read .descendant simples) stops later
            else (.ok ⟨combinator, read, ended⟩, next :: rest) := by
  rw [readChain, takeWhile_gaps areGaps notGap]
  split
  · rename_i nothing
    rw [dropWhile_gaps areGaps notGap] at nothing
    cases nothing
  · rename_i first others skipped
    rw [dropWhile_gaps areGaps notGap] at skipped
    obtain ⟨rfl, rfl⟩ := List.cons.inj skipped
    refine if_congr Iff.rfl rfl ?_
    cases combinatorOf? next.component with
    | some sign =>
        rcases readCompound rest with ⟨_ | _, _⟩ <;> rfl
    | none =>
        refine if_congr Iff.rfl ?_ rfl
        rcases readCompound (next :: rest) with ⟨_ | _, _⟩ <;> rfl

theorem separates_of_combinator {component : Component} {sign : Combinator}
    (isSign : combinatorOf? component = some sign) : separates component = true := by
  simp [separates, isSign]

theorem isDelim_of_combinator {component : Component} {sign : Combinator}
    (isSign : combinatorOf? component = some sign) :
    ∃ text ∈ [">", "+", "~"], component.isDelim text = true := by
  unfold combinatorOf? at isSign
  split at isSign
  · exact ⟨">", by simp, ‹_›⟩
  · split at isSign
    · exact ⟨"+", by simp, ‹_›⟩
    · split at isSign
      · exact ⟨"~", by simp, ‹_›⟩
      · cases isSign

theorem not_gap_of_combinator {component : Component} {sign : Combinator}
    (isSign : combinatorOf? component = some sign) :
    component.isGap = false ∧ component.isDelim "," = false := by
  obtain ⟨text, member, isDelim⟩ := isDelim_of_combinator isSign
  obtain ⟨offset, rfl⟩ := isDelim_iff.mp isDelim
  refine ⟨rfl, ?_⟩
  simp only [List.mem_cons, List.not_mem_nil, or_false] at member
  rcases member with rfl | rfl | rfl <;> rfl

theorem not_gap_of_inside {component : Component} (inside : separates component = false) :
    component.isGap = false ∧ combinatorOf? component = none ∧
      component.isDelim "," = false := by
  simpa [separates, and_assoc] using inside

theorem readChain_of_sign {sign : Combinator} {simples : List Simple} {stops : Bool}
    (areGaps : ∀ atom ∈ gaps, atom.component.isGap = true)
    (isSign : combinatorOf? next.component = some sign)
    (compound : readCompound rest = (.ok (simples, stops), later)) :
    readChain combinator read false (gaps ++ next :: rest) =
      readChain combinator (.combined read sign simples) stops later := by
  obtain ⟨notGap, notComma⟩ := not_gap_of_combinator isSign
  rw [readChain_append areGaps notGap]
  simp [notComma, isSign, compound]

theorem readChain_of_space {simples : List Simple} {stops : Bool}
    (areGaps : ∀ atom ∈ gaps, atom.component.isGap = true)
    (hasSpace : gaps.any (·.component.isWhitespace) = true)
    (inside : separates next.component = false)
    (compound : readCompound (next :: rest) = (.ok (simples, stops), later)) :
    readChain combinator read false (gaps ++ next :: rest) =
      readChain combinator (.combined read .descendant simples) stops later := by
  obtain ⟨notGap, notSign, notComma⟩ := not_gap_of_inside inside
  rw [readChain_append areGaps notGap]
  simp [notComma, notSign, hasSpace, compound]

end Chain

/-- A compound selector ends where a chain that is read to the end goes on. -/
theorem endsCompound_of_readChain {combinator : Combinator} {read : Complex} {ended : Bool}
    {atoms : List Atom} {found : ReadSelector}
    (whole : readChain combinator read ended atoms = (.ok found, [])) : EndsCompound atoms := by
  obtain ⟨gaps, start, rfl, areGaps, startsLater⟩ :=
    exists_split (fun atom : Atom => atom.component.isGap) atoms
  cases gaps with
  | cons gap more =>
      rintro next ⟨⟩
      exact separates_of_gap (areGaps gap List.mem_cons_self)
  | nil =>
      cases start with
      | nil =>
          rintro next ⟨⟩
      | cons first rest =>
          rintro next ⟨⟩
          have notGap := startsLater first rfl
          rw [readChain_append areGaps notGap] at whole
          cases isSign : combinatorOf? first.component with
          | some sign => exact separates_of_combinator isSign
          | none =>
              rw [isSign] at whole
              split at whole
              · cases whole
              · cases whole

theorem not_colon_of_gap {component : Component} (isGap : component.isGap = true) :
    component.isDelim ":" = false :=
  not_colon_of_separates (separates_of_gap isGap)

theorem dropWhile_append_of_starts {gaps start : List Atom}
    (areGaps : ∀ atom ∈ gaps, atom.component.isGap = true)
    (starts : ∀ next ∈ start.head?, next.component.isGap = false) :
    (gaps ++ start).dropWhile (·.component.isGap) = start := by
  cases start with
  | nil => rw [List.append_nil]; exact List.dropWhile_eq_nil_iff.mpr areGaps
  | cons next rest => exact dropWhile_gaps areGaps (starts next rfl)

/-- What is left after the gaps at the start of some atoms, with these gaps. -/
theorem split_of_dropWhile {atoms rest : List Atom} {next : Atom}
    (skipped : atoms.dropWhile (·.component.isGap) = next :: rest) :
    ∃ gaps, atoms = gaps ++ next :: rest ∧ (∀ atom ∈ gaps, atom.component.isGap = true) ∧
      next.component.isGap = false ∧ atoms.takeWhile (·.component.isGap) = gaps := by
  obtain ⟨gaps, start, rfl, areGaps, starts⟩ :=
    exists_split (fun atom : Atom => atom.component.isGap) atoms
  rw [dropWhile_append_of_starts areGaps starts] at skipped
  subst skipped
  have notGap := starts next rfl
  exact ⟨gaps, rfl, areGaps, notGap, takeWhile_gaps areGaps notGap⟩

theorem not_whitespace_of_not_gap {component : Component} (notGap : component.isGap = false) :
    component.isWhitespace = false := by
  rw [Component.isGap, Bool.or_eq_false_iff] at notGap
  exact notGap.1

/-- A chain of compound selectors that is read to the end is read from thinner
atoms as a thinner chain. -/
theorem readChain_thin {combinator : Combinator} {whole : Complex} {ended : Bool}
    {atoms : List Atom} {found : ReadSelector}
    (reads : readChain combinator whole ended atoms = (.ok found, []))
    (keeps : Keeps false false atoms) {left : Complex} {still : Bool}
    (outer : Thinner left whole) (stays : still = true → ended = true) :
    ∃ fewer, readChain combinator left still (thin atoms) = (.ok fewer, []) ∧
      Thinner fewer.selector found.selector := by
  -- the induction is on the compounds still to be read; thinning may have weakened all that is
  -- read before them, so that it is any thinner chain here
  fun_induction readChain combinator whole ended atoms generalizing left still with
  | case1 whole ended atoms done skipped =>
      have areGaps : ∀ atom ∈ atoms, atom.component.isGap = true :=
        List.dropWhile_eq_nil_iff.mp skipped
      have thinned : thin (atoms ++ []) = atoms ++ [] :=
        thin_append fun atom member => not_colon_of_gap (areGaps atom member)
      obtain rfl := Except.ok.inj (Prod.mk.inj reads).1
      rw [List.append_nil] at thinned
      rw [thinned]
      exact ⟨_, readChain_of_gaps areGaps, outer⟩
  | case2 => cases (Prod.mk.inj reads).2
  | case3 => cases reads
  | case4 whole ended atoms next rest skipped goes sign isSign simples stops later compound ih =>
      obtain ⟨gaps, rfl, areGaps, -⟩ := split_of_dropWhile skipped
      have notColon := fun atom member => not_colon_of_gap (areGaps atom member)
      have isSeparator := separates_of_combinator isSign
      have keepsRest := ((keeps_separator isSeparator).mp
        (keeps_append_separators (fun atom member => separates_of_gap (areGaps atom member))
          keeps)).2
      obtain ⟨⟨fewer, stopsStill, thinRead, sub, ends⟩, keepsLater⟩ :=
        readCompound_thin compound (endsCompound_of_readChain reads) keepsRest
      have goesOn : still = false := by
        cases still with
        | false => rfl
        | true => simp [stays rfl] at goes
      obtain ⟨found', chain, thinner⟩ := ih reads keepsLater (.combined sign outer sub) ends
      refine ⟨found', ?_, thinner⟩
      rw [thin_append notColon, thin_cons_of_not_colon (not_colon_of_separates isSeparator),
        goesOn, readChain_of_sign areGaps isSign thinRead]
      exact chain
  | case5 => cases reads
  | case6 whole ended atoms next rest skipped goes isSign hasSpace simples stops later compound
      ih =>
      obtain ⟨gaps, rfl, areGaps, notGap, isGapPart⟩ := split_of_dropWhile skipped
      have notColon := fun atom member => not_colon_of_gap (areGaps atom member)
      have keepsStart : Keeps false false (next :: rest) :=
        keeps_append_separators (fun atom member => separates_of_gap (areGaps atom member)) keeps
      have noSpace : ∀ atom ∈ (next :: rest).head?, atom.component.isWhitespace = false := by
        rintro atom ⟨⟩
        exact not_whitespace_of_not_gap notGap
      obtain ⟨⟨fewer, stopsStill, thinRead, sub, ends⟩, keepsLater, first, others, thinned,
        inside⟩ := readCompound_thin_of_start compound noSpace (endsCompound_of_readChain reads)
          keepsStart
      have goesOn : still = false := by
        cases still with
        | false => rfl
        | true => simp [stays rfl] at goes
      obtain ⟨found', chain, thinner⟩ :=
        ih reads keepsLater (.combined .descendant outer sub) ends
      refine ⟨found', ?_, thinner⟩
      rw [thinned] at thinRead
      rw [isGapPart] at hasSpace
      rw [thin_append notColon, thinned, goesOn,
        readChain_of_space areGaps hasSpace inside thinRead]
      exact chain
  | case7 => cases (Prod.mk.inj reads).2

/-! ## Texts -/

theorem readSelector_eq (atoms : List Atom) :
    readSelector false atoms =
      match readCompound (atoms.dropWhile (·.component.isGap)) with
      | (.error failure, rest) => (.error failure, rest)
      | (.ok (simples, ended), rest) =>
          readChain .descendant (.compound simples) ended rest := rfl

/-- A selector that is read to the end is read from thinner atoms as a thinner
selector. -/
theorem readSelector_thin {atoms : List Atom} {found : ReadSelector}
    (reads : readSelector false atoms = (.ok found, [])) (keeps : Keeps false false atoms) :
    ∃ fewer, readSelector false (thin atoms) = (.ok fewer, []) ∧
      Thinner fewer.selector found.selector := by
  obtain ⟨gaps, start, rfl, areGaps, startsLater⟩ :=
    exists_split (fun atom : Atom => atom.component.isGap) atoms
  have notColon := fun atom member => not_colon_of_gap (areGaps atom member)
  have keepsStart : Keeps false false start :=
    keeps_append_separators (fun atom member => separates_of_gap (areGaps atom member)) keeps
  rw [readSelector_eq, dropWhile_append_of_starts areGaps startsLater] at reads
  split at reads
  · cases reads
  · rename_i simples ended rest compound
    have noSpace : ∀ next ∈ start.head?, next.component.isWhitespace = false :=
      fun next isHead => not_whitespace_of_not_gap (startsLater next isHead)
    obtain ⟨⟨fewer, still, thinRead, sub, ends⟩, keepsRest, first, others, thinned, inside⟩ :=
      readCompound_thin_of_start compound noSpace (endsCompound_of_readChain reads) keepsStart
    obtain ⟨found', chain, thinner⟩ := readChain_thin reads keepsRest (.compound sub) ends
    refine ⟨found', ?_, thinner⟩
    have thinStarts : ∀ next ∈ (thin start).head?, next.component.isGap = false := by
      rw [thinned]
      rintro next ⟨⟩
      exact (not_gap_of_inside inside).1
    rw [readSelector_eq, thin_append notColon, dropWhile_append_of_starts areGaps thinStarts,
      thinRead]
    exact chain

/-- A text without commas that is read at all spells one selector. -/
theorem readList_of_no_comma {atoms : List Atom}
    (noComma : ∀ atom ∈ atoms, atom.component.isDelim "," = false)
    (reads : (readList false false atoms).2 = none) :
    ∃ found, readSelector false atoms = (.ok found, []) := by
  have left := readSelector_suffix false atoms
  unfold readList at reads
  split at reads
  · rename_i found rest selector
    rw [selector] at left
    cases rest with
    | nil => exact ⟨found, selector⟩
    | cons next more =>
        have noMore := noComma next (left.subset List.mem_cons_self)
        rw [readMore, noMore] at reads
        cases reads
  · cases reads
  · cases reads

theorem readList_of_readSelector {atoms : List Atom} {found : ReadSelector}
    (reads : readSelector false atoms = (.ok found, [])) :
    readList false false atoms = ([found], none) := by
  simp only [readList, reads, readMore]

theorem atomsOf_eq_map (components : List Component) :
    atomsOf components = components.map Atom.ofComponent := by
  induction components with
  | nil => rfl
  | cons component rest ih => rw [atomsOf, ih, List.map_cons]

theorem component_ofComponent (component : Component) :
    (Atom.ofComponent component).component = component := by
  unfold Atom.ofComponent
  split <;> rfl

theorem atomsOf_thin (components : List Component) :
    atomsOf (withoutStatePseudos id 0 components) = thin (atomsOf components) := by
  rw [atomsOf_eq_map, atomsOf_eq_map]
  exact (withoutStatePseudos_map id Atom.ofComponent Atom.component component_ofComponent 0
    components).symm

theorem keeps_atomsOf (components : List Component) :
    Keeps false false (atomsOf components) ↔
      keepsCompounds id 0 false false components = true := by
  rw [atomsOf_eq_map, Keeps,
    keepsCompounds_map id Atom.ofComponent Atom.component component_ofComponent]

/-- The components that a text spells, wherever they stand. -/
def componentsOf (text : String) : List Component :=
  Component.bareAll (components text.toList)

/-- The selectors whose normal form leaves out whole state pseudos and nothing
else: a single selector, where the deletion from the text takes out just the state
pseudos that stand among its own components, and where every compound selector
holds something else. -/
structure LosesOnlyPseudos (selector : String) : Prop where
  single : ∀ component ∈ componentsOf selector, component.isDelim "," = false
  whole : componentsOf (normalize selector) =
    withoutStatePseudos id 0 (componentsOf selector)
  keeps : keepsCompounds id 0 false false (componentsOf selector) = true

theorem losesOnlyPseudos_iff {selector : String} :
    LosesOnlyPseudos selector ↔
      (∀ component ∈ componentsOf selector, component.isDelim "," = false) ∧
        componentsOf (normalize selector) =
          withoutStatePseudos id 0 (componentsOf selector) ∧
        keepsCompounds id 0 false false (componentsOf selector) = true :=
  ⟨fun only => ⟨only.single, only.whole, only.keeps⟩, fun parts => ⟨parts.1, parts.2.1, parts.2.2⟩⟩

instance (selector : String) : Decidable (LosesOnlyPseudos selector) :=
  decidable_of_iff' _ losesOnlyPseudos_iff

/-- A selector whose normal form leaves out whole state pseudos is read in normal
form as a thinner selector. -/
theorem parse_normalize {selector : String} (only : LosesOnlyPseudos selector)
    (reads : (SelectorList.parse selector).failure = none) :
    ∃ fewer whole, SelectorList.parse selector = ⟨[whole], none⟩ ∧
      SelectorList.parse (normalize selector) = ⟨[fewer], none⟩ ∧ Thinner fewer whole := by
  have noComma : ∀ atom ∈ atomsOf (componentsOf selector),
      atom.component.isDelim "," = false := by
    rw [atomsOf_eq_map]
    intro atom member
    obtain ⟨component, spelled, rfl⟩ := List.mem_map.mp member
    rw [component_ofComponent]
    exact only.single component spelled
  obtain ⟨found, whole⟩ := readList_of_no_comma noComma reads
  obtain ⟨found', fewer, thinner⟩ :=
    readSelector_thin whole ((keeps_atomsOf _).mpr only.keeps)
  refine ⟨found'.selector, found.selector, ?_, ?_, thinner⟩
  · rw [SelectorList.parse]
    simp only [← componentsOf.eq_1, readList_of_readSelector whole, List.map_cons, List.map_nil]
  · rw [SelectorList.parse]
    simp only [← componentsOf.eq_1, only.whole, atomsOf_thin, readList_of_readSelector fewer,
      List.map_cons, List.map_nil]

end StyleSieve.Selector
