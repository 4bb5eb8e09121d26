import StyleSieve.Proofs.Selector.Deletions

/-!
# Covered characters

Normalizing scans a selector once from left to right, and where several state pseudos start it
takes the first one of the list.  Neither matters: a state pseudo that starts inside of another
one ends with it, so what is deleted are the characters that stand in a state pseudo anywhere in
the text.
-/

namespace StyleSieve.Selector

/-! ## Characters at places -/

/-- The characters of a text at the places that are taken. -/
def atPlaces (isTaken : Nat → Bool) (text : List Char) : List Char :=
  (text.zipIdx.filter fun read => isTaken read.2).map Prod.fst

section Places

variable {isTaken : Nat → Bool} {text : List Char}

theorem atPlaces_append (isTaken : Nat → Bool) (front back : List Char) :
    atPlaces isTaken (front ++ back) =
      atPlaces isTaken front ++ atPlaces (fun place => isTaken (front.length + place)) back := by
  have shift : back.zipIdx front.length =
      back.zipIdx.map fun read => (read.1, front.length + read.2) := by
    rw [List.zipIdx_eq_map_add]
  rw [atPlaces, List.zipIdx_append, List.filter_append, List.map_append, Nat.zero_add, shift,
    List.filter_map, List.map_map]
  rfl

theorem atPlaces_congr {isChosen : Nat → Bool}
    (same : ∀ place < text.length, isTaken place = isChosen place) :
    atPlaces isTaken text = atPlaces isChosen text := by
  rw [atPlaces, atPlaces, List.filter_congr]
  exact fun read member => same read.2 (List.snd_lt_of_mem_zipIdx member)

theorem atPlaces_all (all : ∀ place < text.length, isTaken place = true) :
    atPlaces isTaken text = text := by
  rw [atPlaces, List.filter_eq_self.2 fun read member => all _ (List.snd_lt_of_mem_zipIdx member),
    List.zipIdx_map_fst]

theorem atPlaces_none (none : ∀ place < text.length, isTaken place = false) :
    atPlaces isTaken text = [] := by
  have empty : (text.zipIdx.filter fun read => isTaken read.2) = [] := by
    refine List.filter_eq_nil_iff.2 fun read member taken => ?_
    rw [none _ (List.snd_lt_of_mem_zipIdx member)] at taken
    cases taken
  rw [atPlaces, empty, List.map_nil]

end Places

/-! ## Overlaps -/

/-- Whether a state pseudo in a text stands over a place. -/
def IsCovered (text : List Char) (place : Nat) : Prop :=
  ∃ pseudo ∈ statePseudos, ∃ start ≤ place,
    place < start + pseudo.toList.length ∧ pseudo.toList <+: text.drop start

instance (text : List Char) (place : Nat) : Decidable (IsCovered text place) :=
  inferInstanceAs (Decidable (∃ pseudo ∈ statePseudos, ∃ start ≤ place,
    place < start + pseudo.toList.length ∧ pseudo.toList <+: text.drop start))

/-- A text without its covered characters. -/
def withoutCovered (text : List Char) : List Char :=
  atPlaces (fun place => !decide (IsCovered text place)) text

/-- Only a whole state pseudo ends inside of another one. -/
theorem prefix_of_drop_prefix : ∀ first ∈ statePseudos, ∀ second ∈ statePseudos,
    ∀ start < first.toList.length, first.toList.drop start <+: second.toList →
      second.toList <+: first.toList.drop start := by
  decide +kernel

/-- A state pseudo that starts inside of another one ends inside of it. -/
theorem ends_within {first second : String} {after : List Char} {start : Nat}
    (isFirst : first ∈ statePseudos) (isSecond : second ∈ statePseudos)
    (inside : start < first.toList.length)
    (starts : second.toList <+: first.toList.drop start ++ after) :
    start + second.toList.length ≤ first.toList.length := by
  have within : second.toList <+: first.toList.drop start := by
    rcases List.prefix_or_prefix_of_prefix starts (List.prefix_append _ after) with short | long
    · exact short
    · exact prefix_of_drop_prefix first isFirst second isSecond start inside long
  have length := within.length_le
  rw [List.length_drop] at length
  omega

/-- At most one state pseudo starts a text. -/
theorem eq_of_bothStart {first second : String} {text : List Char} (isFirst : first ∈ statePseudos)
    (isSecond : second ∈ statePseudos) (starts : first.toList <+: text)
    (alsoStarts : second.toList <+: text) : first = second := by
  have filled : ∀ pseudo ∈ statePseudos, 0 < pseudo.toList.length := by decide
  have fits {one other : String} (isOne : one ∈ statePseudos) (isOther : other ∈ statePseudos)
      (startsOne : one.toList <+: text) (startsOther : other.toList <+: text) :
      other.toList.length ≤ one.toList.length := by
    obtain ⟨after, rfl⟩ := startsOne
    have within : 0 + other.toList.length ≤ one.toList.length :=
      ends_within isOne isOther (filled one isOne) startsOther
    rwa [Nat.zero_add] at within
  refine String.toList_inj.1 (List.prefix_of_prefix_length_le starts alsoStarts ?_ |>.eq_of_length ?_)
  · exact fits isSecond isFirst alsoStarts starts
  · exact Nat.le_antisymm (fits isSecond isFirst alsoStarts starts)
      (fits isFirst isSecond starts alsoStarts)

/-! ## One scan -/

section FirstPseudo

variable {segment after : List Char} {pseudo : String} (listed : pseudo ∈ statePseudos)
  (noneStarts : NoneStarts segment (pseudo.toList ++ after))

include noneStarts in
/-- No character before the first state pseudo is covered. -/
theorem not_isCovered_before {place : Nat} (before : place < segment.length) :
    ¬IsCovered (segment ++ (pseudo.toList ++ after)) place := by
  rintro ⟨other, isOther, start, upTo, _, starts⟩
  rw [List.drop_append_of_le_length (by omega)] at starts
  have nothing := noneStarts (segment.take start) (segment.drop start)
    (List.take_append_drop start segment).symm
    (List.ne_nil_of_length_pos (by rw [List.length_drop]; omega))
  exact leadingPseudo?_eq_none.1 nothing other isOther starts

include listed in
/-- The characters of the first state pseudo are covered. -/
theorem isCovered_inside {place : Nat} (inside : place < pseudo.toList.length) :
    IsCovered (segment ++ (pseudo.toList ++ after)) (segment.length + place) := by
  refine ⟨pseudo, listed, segment.length, Nat.le_add_right _ _, by omega, ?_⟩
  rw [List.drop_left]
  exact List.prefix_append _ _

include listed noneStarts in
/-- The first state pseudo changes nothing for the characters after it. -/
theorem isCovered_after (place : Nat) :
    IsCovered (segment ++ (pseudo.toList ++ after))
        (segment.length + (pseudo.toList.length + place)) ↔ IsCovered after place := by
  constructor
  · rintro ⟨other, isOther, start, upTo, beyond, starts⟩
    rcases Nat.lt_or_ge start segment.length with early | late
    · exact absurd ⟨other, isOther, start, Nat.le_refl _, by omega, starts⟩
        (not_isCovered_before noneStarts early)
    obtain ⟨inner, rfl⟩ := Nat.exists_eq_add_of_le late
    rw [List.drop_length_add_append] at starts
    rcases Nat.lt_or_ge inner pseudo.toList.length with within | behind
    · rw [List.drop_append_of_le_length (Nat.le_of_lt within)] at starts
      have ends := ends_within listed isOther within starts
      omega
    · obtain ⟨rest, rfl⟩ := Nat.exists_eq_add_of_le behind
      rw [List.drop_length_add_append] at starts
      exact ⟨other, isOther, rest, by omega, by omega, starts⟩
  · rintro ⟨other, isOther, start, upTo, beyond, starts⟩
    refine ⟨other, isOther, segment.length + (pseudo.toList.length + start), by omega, by omega, ?_⟩
    rwa [List.drop_length_add_append, List.drop_length_add_append]

include listed noneStarts in
theorem withoutCovered_first :
    withoutCovered (segment ++ (pseudo.toList ++ after)) = segment ++ withoutCovered after := by
  rw [withoutCovered, atPlaces_append, atPlaces_append, withoutCovered]
  rw [atPlaces_all, atPlaces_none, List.nil_append]
  · simp only [isCovered_after listed noneStarts]
  · intro place inside
    simpa using isCovered_inside listed inside
  · intro place before
    simpa using not_isCovered_before noneStarts before

end FirstPseudo

theorem withoutCovered_of_noneStarts {text : List Char} (noneStarts : NoneStarts text []) :
    withoutCovered text = text := by
  refine atPlaces_all fun place inside => ?_
  have plain : ¬IsCovered text place := by
    rintro ⟨pseudo, listed, start, upTo, _, starts⟩
    have nothing := noneStarts (text.take start) (text.drop start)
      (List.take_append_drop start text).symm
      (List.ne_nil_of_length_pos (by rw [List.length_drop]; omega))
    rw [List.append_nil] at nothing
    exact leadingPseudo?_eq_none.1 nothing pseudo listed starts
  simpa using plain

/-- The scan deletes the covered characters and no others. -/
theorem withoutPseudos_eq_withoutCovered (text : List Char) :
    withoutPseudos 0 text = withoutCovered text := by
  rcases noneStarts_or_exists text with noneStarts | ⟨segment, word, after, rfl, noneStarts, leads⟩
  · have scanned := withoutPseudos_append noneStarts
    rw [withoutCovered_of_noneStarts noneStarts]
    rwa [List.append_nil, withoutPseudos, List.append_nil] at scanned
  · obtain ⟨⟨pseudo, listed, rfl⟩, _⟩ := leadingPseudo?_spec leads
    have shorter : after.length < (segment ++ (pseudo.toList ++ after)).length := by
      have filled := leadingPseudo_pos leads
      rw [List.length_append, List.length_append]
      omega
    rw [withoutPseudos_append noneStarts, withoutPseudos_pseudo leads,
      withoutCovered_first listed noneStarts, withoutPseudos_eq_withoutCovered after]
termination_by text.length

/-! ## Any order -/

/-- The text after its first `skip` characters without the listed words in it, found from left to
right and without overlap, where the first listed word that starts at a place is taken. -/
def withoutListed (listed : List String) (skip : Nat) : List Char → List Char
  | [] => []
  | c :: rest =>
      match skip with
      | skip + 1 => withoutListed listed skip rest
      | 0 =>
          match (listed.map String.toList).find? (·.isPrefixOf (c :: rest)) with
          | some word => withoutListed listed (word.length - 1) rest
          | none => c :: withoutListed listed 0 rest

/-- In whichever order the state pseudos are listed, the same one starts a text. -/
theorem find?_eq_leadingPseudo? {listed : List String}
    (same : ∀ pseudo, pseudo ∈ listed ↔ pseudo ∈ statePseudos) (text : List Char) :
    (listed.map String.toList).find? (·.isPrefixOf text) = leadingPseudo? text := by
  cases found : (listed.map String.toList).find? (·.isPrefixOf text) with
  | none =>
      refine (leadingPseudo?_eq_none.2 fun pseudo member starts => ?_).symm
      have nowhere := List.find?_eq_none.1 found pseudo.toList
        (List.mem_map_of_mem ((same pseudo).2 member))
      exact nowhere (List.isPrefixOf_iff_prefix.2 starts)
  | some word =>
      obtain ⟨first, isListed, rfl⟩ := List.mem_map.1 (List.mem_of_find?_eq_some found)
      have isFirst := (same first).1 isListed
      have isPrefix : first.toList.isPrefixOf text = true := by
        have holds := List.find?_some found
        exact holds
      have starts := List.isPrefixOf_iff_prefix.1 isPrefix
      cases leads : leadingPseudo? text with
      | none => exact absurd starts (leadingPseudo?_eq_none.1 leads first isFirst)
      | some other =>
          obtain ⟨⟨second, isSecond, rfl⟩, alsoStarts⟩ := leadingPseudo?_spec leads
          rw [eq_of_bothStart isFirst isSecond starts alsoStarts]

theorem withoutListed_eq_withoutPseudos {listed : List String}
    (same : ∀ pseudo, pseudo ∈ listed ↔ pseudo ∈ statePseudos) (skip : Nat) (text : List Char) :
    withoutListed listed skip text = withoutPseudos skip text := by
  induction text generalizing skip with
  | nil => rfl
  | cons c rest ih =>
      cases skip with
      | succ skip => exact ih skip
      | zero =>
          rw [withoutListed, withoutPseudos, find?_eq_leadingPseudo? same]
          cases leadingPseudo? (c :: rest) with
          | none => exact congrArg (c :: ·) (ih 0)
          | some word => exact ih (word.length - 1)

/-! ## Separators -/

/-- Whether no character of a text stands in any state pseudo. -/
def Separates (separator : List Char) : Prop :=
  ∀ c ∈ separator, ∀ pseudo ∈ statePseudos, c ∉ pseudo.toList

instance (separator : List Char) : Decidable (Separates separator) :=
  List.decidableBAll (fun c => ∀ pseudo ∈ statePseudos, c ∉ pseudo.toList) separator

/-- A character under a word is one of the word. -/
theorem mem_of_over {text word : List Char} {start place : Nat} {c : Char}
    (starts : word <+: text.drop start) (upTo : start ≤ place)
    (beyond : place < start + word.length) (here : text[place]? = some c) : c ∈ word := by
  obtain ⟨inner, rfl⟩ := Nat.exists_eq_add_of_le upTo
  have within : inner < word.length := by omega
  have same := List.prefix_iff_getElem?.1 starts inner within
  rw [List.getElem?_drop, here] at same
  exact Option.some.inj same ▸ List.getElem_mem within

section Separated

variable {front separator back : List Char} (separates : Separates separator)

include separates in
/-- No state pseudo stands over a character of a separator. -/
theorem Separates.not_over {pseudo : String} (listed : pseudo ∈ statePseudos) {start place : Nat}
    (starts : pseudo.toList <+: (front ++ (separator ++ back)).drop start)
    (inside : place < separator.length) (upTo : start ≤ front.length + place) :
    start + pseudo.toList.length ≤ front.length + place := by
  by_contra short
  have here : (front ++ (separator ++ back))[front.length + place]? = some separator[place] := by
    rw [List.getElem?_append_right (Nat.le_add_right _ _), Nat.add_sub_cancel_left,
      List.getElem?_append_left inside, List.getElem?_eq_getElem inside]
  exact separates _ (List.getElem_mem inside) pseudo listed
    (mem_of_over starts upTo (Nat.lt_of_not_le short) here)

include separates in
theorem Separates.not_isCovered {place : Nat} (inside : place < separator.length) :
    ¬IsCovered (front ++ (separator ++ back)) (front.length + place) := by
  rintro ⟨pseudo, listed, start, upTo, beyond, starts⟩
  have ends := separates.not_over listed starts inside upTo
  omega

include separates in
/-- What is covered before a separator does not depend on what follows. -/
theorem Separates.isCovered_front (filled : separator ≠ []) {place : Nat}
    (before : place < front.length) :
    IsCovered (front ++ (separator ++ back)) place ↔ IsCovered front place := by
  have first : 0 < separator.length := List.length_pos_iff.2 filled
  constructor
  · rintro ⟨pseudo, listed, start, upTo, beyond, starts⟩
    have ends := separates.not_over listed starts first (by omega)
    rw [List.drop_append_of_le_length (by omega)] at starts
    have length : pseudo.toList.length ≤ (front.drop start).length := by
      rw [List.length_drop]
      omega
    exact ⟨pseudo, listed, start, upTo, beyond,
      List.prefix_of_prefix_length_le starts (List.prefix_append _ _) length⟩
  · rintro ⟨pseudo, listed, start, upTo, beyond, starts⟩
    refine ⟨pseudo, listed, start, upTo, beyond, ?_⟩
    rw [List.drop_append_of_le_length (by omega)]
    exact starts.trans (List.prefix_append _ _)

include separates in
/-- What is covered after a separator does not depend on what precedes. -/
theorem Separates.isCovered_back (filled : separator ≠ []) (place : Nat) :
    IsCovered (front ++ (separator ++ back)) (front.length + (separator.length + place)) ↔
      IsCovered back place := by
  have first : 0 < separator.length := List.length_pos_iff.2 filled
  constructor
  · rintro ⟨pseudo, listed, start, upTo, beyond, starts⟩
    have late : front.length + separator.length ≤ start := by
      by_contra early
      have last : separator.length - 1 < separator.length := by omega
      have ends := separates.not_over listed starts last (by omega)
      omega
    obtain ⟨rest, rfl⟩ := Nat.exists_eq_add_of_le late
    rw [Nat.add_assoc, List.drop_length_add_append, List.drop_length_add_append] at starts
    exact ⟨pseudo, listed, rest, by omega, by omega, starts⟩
  · rintro ⟨pseudo, listed, start, upTo, beyond, starts⟩
    refine ⟨pseudo, listed, front.length + (separator.length + start), by omega, by omega, ?_⟩
    rwa [List.drop_length_add_append, List.drop_length_add_append]

include separates in
theorem Separates.withoutCovered (filled : separator ≠ []) :
    withoutCovered (front ++ (separator ++ back)) =
      withoutCovered front ++ (separator ++ withoutCovered back) := by
  have atFront : atPlaces (fun place => !decide (IsCovered (front ++ (separator ++ back)) place))
      front = Selector.withoutCovered front :=
    atPlaces_congr fun place before => by simp only [separates.isCovered_front filled before]
  rw [Selector.withoutCovered, atPlaces_append, atPlaces_append, atFront, Selector.withoutCovered]
  have atSeparator : atPlaces (fun place =>
      !decide (IsCovered (front ++ (separator ++ back)) (front.length + place))) separator =
        separator :=
    atPlaces_all fun place inside => by simpa using separates.not_isCovered inside
  simp only [atSeparator, separates.isCovered_back filled]
  rfl

end Separated

/-! ## Normalized selectors -/

/-- Normalizing deletes the characters that stand in a state pseudo somewhere in the selector, in
whichever order the pseudos are listed; what stands on the two sides of a separator is normalized
apart. -/
theorem normalize_eq_withoutCovered (selector : String) :
    normalize selector = String.ofList (withoutCovered selector.toList) ∧
      (∀ listed : List String, listed.Perm statePseudos →
        String.ofList (withoutListed listed 0 selector.toList) = normalize selector) ∧
      ∀ separator other : String, separator ≠ "" → Separates separator.toList →
        normalize (selector ++ separator ++ other) =
          normalize selector ++ separator ++ normalize other := by
  have covered (text : String) : normalize text = String.ofList (withoutCovered text.toList) := by
    rw [normalize, withoutPseudos_eq_withoutCovered]
  refine ⟨covered selector, ?_, ?_⟩
  · intro listed order
    rw [withoutListed_eq_withoutPseudos fun pseudo => order.mem_iff, normalize]
  · intro separator other nonempty separates
    have filled : separator.toList ≠ [] := fun empty =>
      nonempty (String.toList_inj.1 (empty.trans String.toList_empty.symm))
    refine String.toList_inj.1 ?_
    rw [covered, covered, covered, String.toList_append, String.toList_append, String.toList_append,
      String.toList_append, String.toList_ofList, String.toList_ofList, String.toList_ofList,
      List.append_assoc, List.append_assoc, separates.withoutCovered filled]

theorem normalize_eq_withoutCovered_overlapping :
    statePseudos.reverse.Perm statePseudos ∧ Separates " + ".toList ∧
      String.ofList (withoutListed statePseudos.reverse 0 "a:::before".toList) =
        normalize "a:::before" ∧
          normalize ("a:::before" ++ " + " ++ ":b::after:hover") = "a: + :b" := by
  have reversed : statePseudos.reverse.Perm statePseudos := List.reverse_perm _
  have separates : Separates " + ".toList := by decide
  have deletes := normalize_eq_withoutCovered "a:::before"
  refine ⟨reversed, separates, deletes.2.1 _ reversed, ?_⟩
  rw [deletes.2.2 " + " ":b::after:hover" (by decide) separates]
  decide +kernel

end StyleSieve.Selector
