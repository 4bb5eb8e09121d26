import StyleSieve.Proofs.Fallible
import StyleSieve.Proofs.Selector.Granting
import StyleSieve.Proofs.Usage.Reduction
import StyleSieve.Usage.Static

/-!
# Selectors that match survive

A sheet is reduced by the normal forms of its selectors.  A selector that matches
in one of the documents as it stands is kept in every rule, as long as its normal
form leaves out whole state pseudos and nothing else, or asks for no more.
-/

namespace StyleSieve

/-! ## Where selectors occur -/

namespace Rule

mutual

theorem map_selector_occurrences (conditions : List String) (rule : Rule) :
    (rule.occurrences conditions).map (·.selector) = rule.selectors := by
  cases rule with
  | style given declarations =>
      rw [occurrences, selectors, List.map_map]
      exact List.map_id _
  | media condition rules =>
      rw [occurrences, map_selector_occurrencesIn (conditions ++ [condition]) rules, selectors]
  | verbatim text => rfl

theorem map_selector_occurrencesIn (conditions : List String) (rules : List Rule) :
    (occurrencesIn conditions rules).map (·.selector) = selectorsOf rules := by
  cases rules with
  | nil => rfl
  | cons rule rest =>
      rw [occurrencesIn, List.map_append, map_selector_occurrences conditions rule,
        map_selector_occurrencesIn conditions rest, selectorsOf]

end

end Rule

/-- The selectors of a sheet are those that occur in it, in order. -/
theorem Stylesheet.map_selector_occurrences (sheet : Stylesheet) :
    sheet.occurrences.map (·.selector) = sheet.selectors :=
  Rule.map_selector_occurrencesIn [] sheet.rules

/-! ## What encloses a place -/

namespace Markup

namespace Place

mutual

theorem mem_allAt_of_above {place : Place} {node : Node} {found other : Place}
    (among : found ∈ allAt place node) (above : other ∈ found.ancestors) :
    other ∈ allAt place node ∨ other ∈ place.ancestors := by
  cases node with
  | element tag attributes content =>
      rw [allAt] at among ⊢
      rcases List.mem_cons.mp among with same | among
      · exact .inr (same ▸ above)
      · rcases mem_allIn_of_above among above with inside | around
        · exact .inl (List.mem_cons_of_mem _ inside)
        · rcases List.mem_cons.mp around with rfl | outside
          · exact .inl List.mem_cons_self
          · exact .inr outside
  | text | comment => cases among
termination_by structural node

theorem mem_allIn_of_above {parent : Place} {before nodes : List Node} {found other : Place}
    (among : found ∈ allIn parent before nodes) (above : other ∈ found.ancestors) :
    other ∈ allIn parent before nodes ∨ other ∈ parent :: parent.ancestors := by
  cases nodes with
  | nil => cases among
  | cons node rest =>
      rw [allIn] at among ⊢
      split at among
      · rw [if_pos ‹_›]
        rcases List.mem_append.mp among with here | later
        · exact (mem_allAt_of_above here above).imp_left (List.mem_append_left _)
        · exact (mem_allIn_of_above later above).imp_left (List.mem_append_right _)
      · rw [if_neg ‹_›]
        exact mem_allIn_of_above among above
termination_by structural nodes

end

end Place

/-- The places of a document hold all that encloses one of them. -/
theorem Node.mem_places_of_above {root : Node} {place other : Place} (among : place ∈ root.places)
    (above : other ∈ place.ancestors) : other ∈ root.places :=
  (Place.mem_allAt_of_above among above).resolve_right nofun

end Markup

namespace Usage

/-! ## Asking the oracle of fixed markup -/

theorem Engine.matchesAmong_cons {engine : Engine} {places : List Markup.Place} {first : String}
    {rest matched : List String}
    (told : engine.matchesAmong places (first :: rest) = .ok matched) :
    ∃ found others, engine.matchesIn places first = .ok found ∧
      engine.matchesAmong places rest = .ok others ∧
      matched = if found then first :: others else others := by
  rw [matchesAmong] at told
  cases found : engine.matchesIn places first with
  | error failure =>
      rw [found] at told
      cases told
  | ok isFound =>
      cases more : engine.matchesAmong places rest with
      | error failure =>
          rw [found, more] at told
          cases told
      | ok others =>
          rw [found, more] at told
          cases told
          exact ⟨isFound, others, rfl, rfl, rfl⟩

/-- The oracle reports exactly the selectors that match. -/
theorem Engine.mem_matchesAmong {engine : Engine} {places : List Markup.Place}
    {selectors matched : List String} (told : engine.matchesAmong places selectors = .ok matched)
    {selector : String} :
    selector ∈ matched ↔
      selector ∈ selectors ∧ engine.matchesIn places selector = .ok true := by
  induction selectors generalizing matched with
  | nil =>
      cases told
      simp
  | cons first rest ih =>
      obtain ⟨found, others, isFound, more, rfl⟩ := matchesAmong_cons told
      cases found with
      | true =>
          rw [if_pos rfl, List.mem_cons, ih more, List.mem_cons]
          constructor
          · rintro (rfl | ⟨member, holds⟩)
            · exact ⟨.inl rfl, isFound⟩
            · exact ⟨.inr member, holds⟩
          · rintro ⟨rfl | member, holds⟩
            · exact .inl rfl
            · exact .inr ⟨member, holds⟩
      | false =>
          rw [if_neg Bool.false_ne_true, ih more, List.mem_cons]
          constructor
          · rintro ⟨member, holds⟩
            exact ⟨.inr member, holds⟩
          · rintro ⟨rfl | member, holds⟩
            · rw [isFound] at holds
              cases holds
            · exact ⟨member, holds⟩

/-- A document that has not been seen is answered about as by a fresh oracle. -/
theorem answer_of_unseen {document : Document} {pages : Pages} (selectors : List String)
    (unseen : pages.lookup document.location = none) :
    (answer document selectors pages).1 = (answer document selectors []).1 := by
  have fresh : ([] : Pages).lookup document.location = none := rfl
  rw [answer, answer, Engine.answer, Engine.answer, Document.load, Document.load, unseen, fresh]
  cases document.places? <;> rfl

/-- Answering about a document leaves documents from other places unseen. -/
theorem lookup_answer {document : Document} {pages : Pages} (selectors : List String)
    {location : String} (other : location ≠ document.location)
    (unseen : pages.lookup location = none) :
    (answer document selectors pages).2.lookup location = none := by
  rw [answer, Engine.answer, Document.load]
  cases pages.lookup document.location with
  | some places => exact unseen
  | none =>
      cases document.places? with
      | none => exact unseen
      | some places =>
          change (pages ++ [(document.location, places)]).lookup location = none
          rw [List.lookup_append, unseen, List.lookup_cons, beq_eq_false_iff_ne.mpr other]
          rfl

/-- Documents from different places are answered about one by one. -/
theorem collectJobs_static {selectors : List String} (some : selectors ≠ [])
    {documents : List Document} {pages : Pages}
    (distinct : (documents.map (·.location)).Nodup)
    (unseen : ∀ document ∈ documents, pages.lookup document.location = none) :
    (staticOracle.collectJobs selectors documents pages).1 =
      documents.map fun document => ⟨0, (answer document selectors []).1⟩ := by
  induction documents generalizing pages with
  | nil => rfl
  | cons document rest ih =>
      rw [List.map_cons, List.nodup_cons] at distinct
      rw [List.forall_mem_cons] at unseen
      have isAsked : selectors.isEmpty = false := by simpa using some
      have asked : staticOracle.collectJob document selectors pages =
          (⟨0, (answer document selectors pages).1⟩, (answer document selectors pages).2) := by
        rw [Oracle.collectJob, isAsked]
        rfl
      -- no other document has this location, so none is found loaded when its turn comes
      have later := ih distinct.2 fun other member =>
        lookup_answer selectors
          (fun same => distinct.1 (List.mem_map.mpr ⟨other, member, same⟩))
          (unseen.2 other member)
      rw [Oracle.collectJobs, asked]
      simp only [later, answer_of_unseen selectors unseen.1, List.map_cons]

/-- A selector matches some places by conditions that hold at one of them. -/
theorem matchesIn_eq_true {places : List Markup.Place} {selector : String} :
    matchesIn places selector = .ok true ↔
      ∃ conditions, Selector.conditionsOfText selector = .ok conditions ∧
        Selector.matchesSome conditions places = true := by
  rw [matchesIn, Engine.matchesIn, conditionEngine]
  match Selector.conditionsOfText selector with
  | .ok conditions =>
      change .ok (Selector.matchesSome conditions places) = Except.ok true ↔ _
      simp only [Except.ok.injEq, exists_eq_left']
  | .error (.refused refusal) => exact iff_of_false nofun nofun
  | .error (.defect defect) => exact iff_of_false nofun nofun

/-- The selectors that match in normal form wherever they match: the normal form is the selector
itself, or leaves out whole state pseudos and nothing else, or can be handled and asks for no
more. -/
def KeepsMatches (selector : String) : Prop :=
  Selector.normalize selector = selector ∨ Selector.LosesOnlyPseudos selector ∨
    Selector.NormalAsksNoMore selector

instance (selector : String) : Decidable (KeepsMatches selector) :=
  inferInstanceAs (Decidable (_ ∨ _ ∨ _))

/-- A selector that matches in a document matches in normal form, at the same place or further
out. -/
theorem matchesIn_normalize {selector : String} (safe : KeepsMatches selector)
    {places : List Markup.Place}
    (closed : ∀ place ∈ places, ∀ other ∈ place.ancestors, other ∈ places)
    (found : matchesIn places selector = .ok true) :
    matchesIn places (Selector.normalize selector) = .ok true := by
  obtain ⟨conditions, handled, somewhere⟩ := matchesIn_eq_true.mp found
  rcases safe with same | only | asks
  · rwa [same]
  · exact matchesIn_eq_true.mpr (Selector.matches_normalize only handled somewhere)
  · exact matchesIn_eq_true.mpr
      (Selector.matches_of_normalAsksNoMore asks closed handled somewhere)

/-- The places of a document that is loaded hold all that encloses one of them. -/
theorem closed_of_load {document : Document} {places : List Markup.Place}
    (loaded : (document.load []).1 = .ok places) :
    ∀ place ∈ places, ∀ other ∈ place.ancestors, other ∈ places := by
  rw [Document.load, List.lookup_nil] at loaded
  cases isPlaces : document.places? with
  | none =>
      rw [isPlaces] at loaded
      cases loaded
  | some given =>
      rw [isPlaces] at loaded
      cases loaded
      rw [Document.places?] at isPlaces
      split at isPlaces
      · cases isPlaces
        exact nofun
      · obtain ⟨root, -, rfl⟩ := Option.map_eq_some_iff.mp isPlaces
        exact fun place among other above => Markup.Node.mem_places_of_above among above

/-- A selector that matches in a document is reported for it in normal form. -/
theorem mem_answer {document : Document} {selector : String} {selectors matched : List String}
    (safe : KeepsMatches selector)
    (found : (answer document [selector] []).1 = .ok [selector])
    (told : (answer document selectors []).1 = .ok matched)
    (asked : Selector.normalize selector ∈ selectors) :
    Selector.normalize selector ∈ matched := by
  rw [answer, Engine.answer] at found told
  cases loaded : (document.load []).1 with
  | error failure =>
      rw [loaded] at found
      cases found
  | ok places =>
      rw [loaded] at found told
      have isFound := ((Engine.mem_matchesAmong found).mp (List.mem_singleton_self _)).2
      exact (Engine.mem_matchesAmong told).mpr
        ⟨asked, matchesIn_normalize safe (closed_of_load loaded) isFound⟩

/-! ## Reducing by fixed markup -/

/-- Jobs whose values are gathered have all succeeded. -/
theorem isOk_of_gather {ε α : Type} {jobs : List (Job ε α)} {values : List α}
    (gathered : gather jobs = .ok values) : ∀ job ∈ jobs, job.outcome.isOk = true := by
  intro job member
  cases succeeds : job.outcome.isOk with
  | true => rfl
  | false =>
      obtain ⟨_, _, failure, _, _, failed, _⟩ := gather_of_failure ⟨job, member, succeeds⟩
      rw [gathered] at failed
      cases failed

/-- A reduction that succeeds has answers about all documents, and sifts its sheet
by them. -/
theorem sift_of_reduce {δ σ ε : Type} {oracle : Oracle δ σ ε} {documents : List δ}
    {sheet reduced : Stylesheet} {keep : List Selector.KeepValue}
    {entries : List Selector.KeepEntry} {state : σ}
    (builds : Selector.keepEntries keep = .ok entries)
    (reduces : (reduce oracle documents sheet keep state).1 = .ok reduced) :
    let jobs := (oracle.collectJobs (question sheet) documents state).1
    (∀ job ∈ jobs, job.outcome.isOk = true) ∧ reduced = sheet.sift (stays entries jobs) := by
  intro jobs
  have answered : ∀ job ∈ jobs, job.outcome.isOk = true := by
    cases gathered : gather jobs with
    | ok values => exact isOk_of_gather gathered
    | error failure =>
        rw [reduce_eq, builds] at reduces
        simp only [Oracle.usage_eq] at reduces
        rw [show gather (oracle.collectJobs (question sheet) documents state).1 =
          .error failure from gathered] at reduces
        cases reduces
  rw [reduce_eq_sift builds answered] at reduces
  exact ⟨answered, (Except.ok.inj reduces).symm⟩

/-- A selector that matches in a document as it stands survives every reduction
by documents among which that one is, in every rule in which it occurs, if its
normal form keeps its matches. -/
theorem reduce_keeps_matched (documents : List Document) (sheet reduced : Stylesheet)
    (selector : String) (document : Document) (member : document ∈ documents)
    (distinct : (documents.map (·.location)).Nodup)
    (safe : KeepsMatches selector)
    (found : (answer document [selector] []).1 = .ok [selector])
    (reduces : (reduce staticOracle documents sheet [] []).1 = .ok reduced) :
    reduced.occurrences.filter (·.selector = selector) =
      sheet.occurrences.filter (·.selector = selector) := by
  obtain ⟨answered, rfl⟩ := sift_of_reduce rfl reduces
  rw [Stylesheet.occurrences_sift, List.filter_filter]
  refine List.filter_congr fun occurrence occurs => ?_
  by_cases same : occurrence.selector = selector
  · subst same
    have isSelector : occurrence.selector ∈ sheet.selectors := by
      rw [← Stylesheet.map_selector_occurrences]
      exact List.mem_map_of_mem occurs
    have isAsked : Selector.normalize occurrence.selector ∈ question sheet :=
      List.mem_map_of_mem isSelector
    have jobs : (staticOracle.collectJobs (question sheet) documents []).1 =
        documents.map fun document => ⟨0, (answer document (question sheet) []).1⟩ :=
      collectJobs_static (List.ne_nil_of_mem isAsked) distinct fun _ _ => rfl
    have jobMember : ⟨0, (answer document (question sheet) []).1⟩ ∈
        (staticOracle.collectJobs (question sheet) documents []).1 :=
      jobs ▸ List.mem_map_of_mem member
    have reported : isReported (staticOracle.collectJobs (question sheet) documents []).1
        (Selector.normalize occurrence.selector) = true := by
      refine List.any_eq_true.mpr ⟨_, jobMember, ?_⟩
      cases told : (answer document (question sheet) []).1 with
      | error failure =>
          have succeeds := answered _ jobMember
          rw [told] at succeeds
          cases succeeds
      | ok matched => exact List.contains_iff_mem.mpr (mem_answer safe found told isAsked)
    simp [stays, reported]
  · simp [same]

/-- A selector for what stands in links, which asks for links alone in normal form, in a page with
a link.  Pseudos may be alone beside blanks and stand in functions, but not next to a sign or under
a `not`. -/
theorem reduce_keeps_matched_link :
    let document : Document := ⟨"page.html", "<a href=x><b></b></a>"⟩
    let selector := ":is(a:link, i) ::before"
    let sheet : Stylesheet := ⟨[.media "print" [.style ["i", selector] ["c: d"]]]⟩
    (∃ reduced, (reduce staticOracle [document] sheet [] []).1 = .ok reduced ∧
      reduced.occurrences.filter (·.selector = selector) =
        [⟨["print"], ["c: d"], selector⟩]) ∧
      (∀ covered ∈ ["p ::before", ":link b", ":is(a:link)", "p:has(> a:link)", "a:link, i"],
        KeepsMatches covered) ∧
      ∀ other ∈ [":link", "p > :link", ":not(:hover)", ":is(:hover, b)"],
        ¬KeepsMatches other := by
  intro document selector sheet
  have safe : Selector.NormalAsksNoMore selector := by decide +kernel
  have found : (answer document [selector] []).1 = .ok [selector] :=
    eq_ok_of_toOption (by decide +kernel)
  have reduces : (reduce staticOracle [document] sheet [] []).1.isOk = true := by
    decide +kernel
  refine ⟨?_, by decide +kernel, by decide +kernel⟩
  cases outcome : (reduce staticOracle [document] sheet [] []).1 with
  | error failure =>
      rw [outcome] at reduces
      cases reduces
  | ok reduced =>
      exact ⟨reduced, rfl, reduce_keeps_matched [document] sheet reduced selector document
        List.mem_cons_self (by decide) (.inr (.inr safe)) found outcome⟩

/-- A selector that matches need not survive: one that is nothing but a state
pseudo is empty in normal form, and nothing matches that. -/
theorem reduce_deletes_matched :
    ¬ ∀ (documents : List Document) (sheet reduced : Stylesheet) (selector : String)
        (document : Document), document ∈ documents →
        (documents.map (·.location)).Nodup →
        (answer document [selector] []).1 = .ok [selector] →
        (reduce staticOracle documents sheet [] []).1 = .ok reduced →
        reduced.occurrences.filter (·.selector = selector) =
          sheet.occurrences.filter (·.selector = selector) := by
  intro survives
  let document : Document := ⟨"page.html", "<a href=x></a>"⟩
  let sheet : Stylesheet := ⟨[.style [":link"] ["c: d"]]⟩
  have found : (answer document [":link"] []).1 = .ok [":link"] :=
    eq_ok_of_toOption (by decide +kernel)
  have reduces : (reduce staticOracle [document] sheet [] []).1.toOption.map (·.occurrences) =
      some [] := by
    decide +kernel
  obtain ⟨reduced, isReduced, isEmpty⟩ := Option.map_eq_some_iff.mp reduces
  have same := survives [document] sheet reduced ":link" document List.mem_cons_self (by decide)
    found (eq_ok_of_toOption isReduced)
  rw [isEmpty] at same
  cases same

end Usage

end StyleSieve
