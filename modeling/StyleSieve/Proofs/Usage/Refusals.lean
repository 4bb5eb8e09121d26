import StyleSieve.Proofs.Sheet.Pruning
import StyleSieve.Proofs.Usage.Pages
import StyleSieve.Proofs.Usage.Survival

/-!
# Selectors that cannot be matched

Whatever engine handles the selectors, one that it refuses matches nowhere and touches no other
selector.  A selector with a defect does: it makes the question fail in which it is asked, and with
it the reduction, whatever else is asked.  So a reduction whose documents load comes down to one
question: has a normal selector of the sheet a defect in one of the documents?
-/

namespace StyleSieve.Usage

open Markup (Place)

namespace Engine

variable (engine : Engine)

/-! ## One selector -/

/-- The defect of a selector in some places, if it has one there. -/
def defect? (places : List Place) (selector : String) : Option Selector.Defect :=
  match engine places selector with
  | .error (.defect defect) => some defect
  | _ => none

/-- Whether a selector can be handled and matches one of some places. -/
def matchesAt (places : List Place) (selector : String) : Bool :=
  match engine places selector with
  | .ok found => found
  | .error _ => false

theorem matchesIn_eq (places : List Place) (selector : String) :
    engine.matchesIn places selector =
      match engine.defect? places selector with
      | some defect => .error (.defect defect)
      | none => .ok (engine.matchesAt places selector) := by
  unfold matchesIn defect? matchesAt
  match engine places selector with
  | .ok found => rfl
  | .error (.refused refusal) => rfl
  | .error (.defect defect) => rfl

/-- A selector that is refused has no defect, and matches nowhere. -/
theorem matchesAt_of_refused {engine : Engine} {places : List Place} {selector : String}
    {refusal : Selector.Refusal} (refused : engine places selector = .error (.refused refusal)) :
    engine.defect? places selector = none ∧ engine.matchesAt places selector = false := by
  rw [defect?, matchesAt, refused]
  exact ⟨rfl, rfl⟩

/-! ## One question -/

/-- The first defect among some selectors in some places. -/
def firstDefect? (places : List Place) (selectors : List String) : Option Selector.Defect :=
  selectors.findSome? (engine.defect? places)

/-- A question fails by its first selector with a defect, and is answered selector by
selector if there is none. -/
theorem matchesAmong_eq (places : List Place) (selectors : List String) :
    engine.matchesAmong places selectors =
      match engine.firstDefect? places selectors with
      | some defect => .error (.defect defect)
      | none => .ok (selectors.filter (engine.matchesAt places)) := by
  induction selectors with
  | nil => rfl
  | cons first rest ih =>
      have split : engine.firstDefect? places (first :: rest) =
          (engine.defect? places first).or (engine.firstDefect? places rest) := by
        rw [firstDefect?, List.findSome?_cons]
        cases engine.defect? places first <;> rfl
      rw [matchesAmong, matchesIn_eq, ih, split, List.filter_cons]
      cases engine.defect? places first with
      | some defect => rfl
      | none =>
          cases engine.firstDefect? places rest with
          | some defect => rfl
          | none => rfl

/-- The job of asking for some selectors in some places. -/
def job (selectors : List String) (places : List Place) : Job StaticFailure (List String) :=
  ⟨0, engine.matchesAmong places selectors⟩

end Engine

/-! ## All documents -/

/-- The places of documents as they are loaded one after another, and the pages then. -/
def loadAll : List Document → Pages → List (Except StaticFailure (List Place)) × Pages
  | [], pages => ([], pages)
  | document :: rest, pages =>
      let first := document.load pages
      let others := loadAll rest first.2
      (first.1 :: others.1, others.2)

/-- A document that has markup loads, whatever the pages hold. -/
theorem load_of_loads {document : Document} (loads : document.loads = true) (pages : Pages) :
    ∃ places, (document.load pages).1 = .ok places := by
  obtain ⟨places, isPlaces⟩ := Option.isSome_iff_exists.1 loads
  rw [Document.load, isPlaces]
  cases pages.lookup document.location with
  | some held => exact ⟨held, rfl⟩
  | none => exact ⟨places, rfl⟩

theorem loadAll_of_loads {documents : List Document}
    (load : ∀ document ∈ documents, document.loads = true) (pages : Pages) :
    ∃ placesOf : List (List Place), (loadAll documents pages).1 = placesOf.map .ok := by
  induction documents generalizing pages with
  | nil => exact ⟨[], rfl⟩
  | cons document rest ih =>
      rw [List.forall_mem_cons] at load
      obtain ⟨places, loaded⟩ := load_of_loads load.1 pages
      obtain ⟨others, allLoaded⟩ := ih load.2 (document.load pages).2
      refine ⟨places :: others, ?_⟩
      rw [loadAll, loaded, allLoaded, List.map_cons]

/-- Where there is nothing to be asked, every job ends at once with nothing. -/
theorem collectJobs_of_no_selectors {δ σ ε : Type} (oracle : Oracle δ σ ε) (documents : List δ)
    (state : σ) :
    oracle.collectJobs [] documents state = (documents.map fun _ => ⟨0, .ok []⟩, state) := by
  induction documents with
  | nil => rfl
  | cons document rest ih => simp [Oracle.collectJobs, Oracle.collectJob, ih]

section

variable (engine : Engine)

/-- The jobs about documents look for all selectors in the places of each. -/
theorem collectJobs_eq {selectors : List String} (some : selectors ≠ [])
    (documents : List Document) (pages : Pages) :
    (engine.oracle.collectJobs selectors documents pages).1 =
      (loadAll documents pages).1.map fun loaded =>
        ⟨0, loaded.bind fun places => engine.matchesAmong places selectors⟩ := by
  induction documents generalizing pages with
  | nil => rfl
  | cons document rest ih =>
      have isAsked : selectors.isEmpty = false := by simpa using some
      have asked : engine.oracle.collectJob document selectors pages =
          (⟨0, (document.load pages).1.bind fun places =>
              engine.matchesAmong places selectors⟩,
            (document.load pages).2) := by
        rw [Oracle.collectJob, isAsked]
        rfl
      rw [Oracle.collectJobs, loadAll, List.map_cons, asked, ih]

/-! ## Reducing -/

/-- Whether a selector is wanted by places alone: its normal form starts like an at-rule, or
can be handled and matches in the places of some document. -/
def isFound (placesOf : List (List Place)) (selector : String) : Bool :=
  (Selector.normalize selector).toList.head? == some '@' ||
    placesOf.any (engine.matchesAt · (Selector.normalize selector))

variable {documents : List Document} {pages : Pages} {placesOf : List (List Place)}
  (loaded : (loadAll documents pages).1 = placesOf.map .ok) {sheet : Stylesheet}

include loaded

theorem collectJobs_of_loaded (asks : question sheet ≠ []) :
    (engine.oracle.collectJobs (question sheet) documents pages).1 =
      placesOf.map (engine.job (question sheet)) := by
  rw [collectJobs_eq engine asks, loaded, List.map_map]
  rfl

/-- A sheet without defects is sifted by what is found. -/
theorem reduce_of_no_defect
    (clean : ∀ places ∈ placesOf, engine.firstDefect? places (question sheet) = none) :
    (reduce engine.oracle documents sheet [] pages).1 =
      .ok (sheet.sift (isFound engine placesOf)) := by
  -- a sheet without selectors asks no document at all
  by_cases asks : question sheet = []
  · have noSelectors : sheet.selectors = [] := List.map_eq_nil_iff.1 asks
    have answered : ∀ job ∈ (engine.oracle.collectJobs (question sheet) documents pages).1,
        job.outcome.isOk = true := by
      rw [asks, collectJobs_of_no_selectors, List.forall_mem_map]
      exact fun _ _ => rfl
    rw [reduce_eq_sift rfl answered]
    refine congrArg Except.ok (Stylesheet.sift_congr fun selector member => ?_)
    rw [noSelectors] at member
    cases member
  · have jobs : (engine.oracle.collectJobs (question sheet) documents pages).1 =
        placesOf.map fun places =>
          ⟨0, .ok ((question sheet).filter (engine.matchesAt places))⟩ := by
      rw [collectJobs_of_loaded engine loaded asks]
      refine List.map_congr_left fun places among => ?_
      rw [Engine.job, Engine.matchesAmong_eq, clean places among]
    have answered : ∀ job ∈ (engine.oracle.collectJobs (question sheet) documents pages).1,
        job.outcome.isOk = true := by
      rw [jobs, List.forall_mem_map]
      exact fun _ _ => rfl
    rw [reduce_eq_sift rfl answered, jobs]
    refine congrArg Except.ok (Stylesheet.sift_congr fun selector member => ?_)
    have isAsked : Selector.normalize selector ∈ question sheet := List.mem_map_of_mem member
    simp [stays, isFound, isReported, Selector.isKept, List.any_map, Function.comp_def, isAsked]

/-- A sheet with a defect in some document cannot be reduced; the first document that has one
decides. -/
theorem reduce_of_defect {before after : List (List Place)} {places : List Place}
    (split : placesOf = before ++ places :: after)
    (clean : ∀ earlier ∈ before, engine.firstDefect? earlier (question sheet) = none)
    {defect : Selector.Defect}
    (defective : engine.firstDefect? places (question sheet) = .some defect) :
    (reduce engine.oracle documents sheet [] pages).1 = .error (.usage (.defect defect)) := by
  have asks : question sheet ≠ [] := by
    intro none
    rw [none] at defective
    cases defective
  have jobs := collectJobs_of_loaded engine loaded asks
  have gathered : gather (engine.oracle.collectJobs (question sheet) documents pages).1 =
      .error (.defect defect) := by
    refine (gather_eq_error_of_atOnce (by simp [jobs, Engine.job])).2
      ⟨before.map (engine.job (question sheet)), engine.job (question sheet) places,
        after.map (engine.job (question sheet)), ?_, ?_, ?_⟩
    · rw [jobs, split, List.map_append, List.map_cons]
    · rw [List.forall_mem_map]
      intro earlier among
      rw [Engine.job, Engine.matchesAmong_eq, clean earlier among]
      rfl
    · rw [Engine.job, Engine.matchesAmong_eq, defective]
  rw [reduce_eq]
  simp only [Oracle.usage_eq, gathered]
  rfl

end

/-- What a reduction comes to whose documents load, with any engine.  It returns just if no normal
selector has a defect in a document, and then decides on each selector by itself: by its normal form
and by places that do not depend on the sheet.  Otherwise it fails by the first defect in the first
document that has one.  A selector that is refused counts as one that does not match. -/
theorem reduce_contains_refusals (engine : Engine) (documents : List Document)
    (load : ∀ document ∈ documents, document.loads = true) (pages : Pages) :
    ∃ placesOf : List (List Place), (loadAll documents pages).1 = placesOf.map .ok ∧
      (∀ sheet : Stylesheet,
        ((∃ reduced, (reduce engine.oracle documents sheet [] pages).1 = .ok reduced) ↔
          ∀ places ∈ placesOf, ∀ selector ∈ sheet.selectors,
            engine.defect? places (Selector.normalize selector) = none) ∧
        (∀ reduced, (reduce engine.oracle documents sheet [] pages).1 = .ok reduced →
          reduced = sheet.sift (isFound engine placesOf)) ∧
        ∀ before places after defect, placesOf = before ++ places :: after →
          (∀ earlier ∈ before, engine.firstDefect? earlier (question sheet) = none) →
          engine.firstDefect? places (question sheet) = some defect →
          (reduce engine.oracle documents sheet [] pages).1 =
            .error (.usage (.defect defect))) ∧
      ∀ selector,
        (∀ places ∈ placesOf, ∃ refusal,
          engine places (Selector.normalize selector) = .error (.refused refusal)) →
        isFound engine placesOf selector =
          ((Selector.normalize selector).toList.head? == some '@') := by
  obtain ⟨placesOf, loaded⟩ := loadAll_of_loads load pages
  refine ⟨placesOf, loaded, fun sheet => ?_, fun selector refused => ?_⟩
  · have clean_iff (places : List Place) :
        engine.firstDefect? places (question sheet) = none ↔ ∀ selector ∈ sheet.selectors,
          engine.defect? places (Selector.normalize selector) = none := by
      rw [Engine.firstDefect?, List.findSome?_eq_none_iff, question, List.forall_mem_map]
    have settled (reduced : Stylesheet)
        (reduces : (reduce engine.oracle documents sheet [] pages).1 = .ok reduced) :
        ∀ places ∈ placesOf, engine.firstDefect? places (question sheet) = none := by
      cases first : placesOf.findSome? (engine.firstDefect? · (question sheet)) with
      | none => exact List.findSome?_eq_none_iff.1 first
      | some defect =>
          obtain ⟨before, places, after, split, isFirst, clean⟩ :=
            List.findSome?_eq_some_iff.1 first
          rw [reduce_of_defect engine loaded split clean isFirst] at reduces
          cases reduces
    refine ⟨⟨fun returns places among => ?_, fun clean => ?_⟩, fun reduced reduces => ?_,
      fun before places after defect split clean first =>
        reduce_of_defect engine loaded split clean first⟩
    · obtain ⟨reduced, reduces⟩ := returns
      exact (clean_iff places).1 (settled reduced reduces places among)
    · exact ⟨_, reduce_of_no_defect engine loaded fun places among =>
        (clean_iff places).2 (clean places among)⟩
    · rw [reduce_of_no_defect engine loaded (settled reduced reduces)] at reduces
      exact (Except.ok.inj reduces).symm
  · have nowhere : placesOf.any (engine.matchesAt · (Selector.normalize selector)) = false := by
      refine List.any_eq_false.2 fun places among => ?_
      obtain ⟨refusal, isRefused⟩ := refused places among
      simp [(Engine.matchesAt_of_refused isRefused).2]
    rw [isFound, nowhere, Bool.or_false]

/-- A selector that is refused beside one that matches. -/
theorem reduce_contains_refusals_beside :
    let document : Document := ⟨"p.html", "<a></a>"⟩
    let sheet : Stylesheet := ⟨[.style ["a", "a > :hover"] ["c: d"]]⟩
    document.loads = true ∧
      (reduce conditionEngine.oracle [document] sheet [] []).1 =
        .ok (sheet.sift (isFound conditionEngine [document.places?.getD []])) ∧
      (sheet.sift (isFound conditionEngine [document.places?.getD []])).occurrences =
        [⟨[], ["c: d"], "a"⟩] := by
  intro document sheet
  have loads : document.loads = true := by decide +kernel
  obtain ⟨placesOf, loaded, reduces, -⟩ := reduce_contains_refusals conditionEngine [document]
    (by rw [List.forall_mem_singleton]; exact loads) []
  obtain ⟨places, isPlaces⟩ := Option.isSome_iff_exists.1 loads
  have own : placesOf = [document.places?.getD []] := by
    have settled : (loadAll [document] []).1 = [places].map .ok := by
      simp only [loadAll, Document.load, List.lookup_nil, isPlaces, List.map_cons, List.map_nil]
    rw [isPlaces, Option.getD_some]
    exact (List.map_inj_right fun _ _ => Except.ok.inj).1 (loaded.symm.trans settled)
  subst own
  obtain ⟨returns, sifts, -⟩ := reduces sheet
  obtain ⟨reduced, isReduced⟩ := returns.2 (by decide +kernel)
  rw [sifts reduced isReduced] at isReduced
  exact ⟨loads, isReduced, by decide +kernel⟩

/-- A reduction need not succeed though its document loads: a selector that is empty inside
its parentheses in normal form has a defect. -/
theorem reduce_fails_by_defect :
    ¬∀ (documents : List Document) (sheet : Stylesheet),
        (∀ document ∈ documents, document.loads = true) →
        ∃ reduced, (reduce staticOracle documents sheet [] []).1 = .ok reduced := by
  intro succeeds
  let document : Document := ⟨"p.html", "<a></a>"⟩
  let sheet : Stylesheet := ⟨[.style ["a", ":has(:hover)"] ["c: d"]]⟩
  have loads : document.loads = true := by decide +kernel
  obtain ⟨reduced, isOk⟩ := succeeds [document] sheet
    (by rw [List.forall_mem_singleton]; exact loads)
  have fails : (reduce staticOracle [document] sheet [] []).1.isOk = false := by decide +kernel
  rw [isOk] at fails
  cases fails

end StyleSieve.Usage
