import Mathlib.Data.List.Induction
import StyleSieve.Proofs.Fetch.Errands
import StyleSieve.Proofs.Location.Addresses
import StyleSieve.Proofs.Run.Stages
import StyleSieve.Proofs.Usage.Survival

/-!
# The order of the sheets of a run

The sheets of a run are the locations that the references in its documents lead to, each of them
once, in the order in which they are first referred to.  They are fetched in this order.
-/

namespace StyleSieve.Run

open Usage (Document Pages)

/-! ## First occurrences -/

section

variable {κ α : Type} [BEq α] [LawfulBEq α]

theorem eraseDups_concat (values : List α) (value : α) :
    (values ++ [value]).eraseDups =
      values.eraseDups ++ if values.contains value then [] else [value] := by
  rw [List.eraseDups_append, List.removeAll, List.filter_cons, List.filter_nil]
  cases found : values.contains value <;> simp_all [List.eraseDups_cons]

/-- Of values with places that follow each other, those without the repetitions stand in the order
of their first places. -/
theorem pairwise_eraseDups {before : κ → κ → Prop} {entries : List (κ × α)}
    (sorted : (entries.map Prod.fst).Pairwise before) :
    (entries.map Prod.snd).eraseDups.Pairwise fun first second =>
      ∃ place, (place, first) ∈ entries ∧
        ∀ other, (other, second) ∈ entries → before place other := by
  induction entries using List.reverseRecOn with
  | nil => exact .nil
  | append_singleton entries last ih =>
      rw [List.map_append, List.map_singleton, List.pairwise_append] at sorted
      obtain ⟨sorted, -, isLast⟩ := sorted
      rw [List.map_append, List.map_singleton, eraseDups_concat]
      have later {place : κ} {value : α} (among : (place, value) ∈ entries) : before place last.1 :=
        isLast place (List.mem_map_of_mem among) last.1 (List.mem_singleton_self _)
      -- A place before all earlier ones of a value is before the last one too.
      have grown {first second : α} (ordered : ∃ place, (place, first) ∈ entries ∧
            ∀ other, (other, second) ∈ entries → before place other) :
          ∃ place, (place, first) ∈ entries ++ [last] ∧
            ∀ other, (other, second) ∈ entries ++ [last] → before place other := by
        obtain ⟨place, among, first⟩ := ordered
        refine ⟨place, List.mem_append_left _ among, fun other isOther => ?_⟩
        rcases List.mem_append.mp isOther with earlier | isLast
        · exact first other earlier
        · obtain rfl := List.mem_singleton.mp isLast
          exact later among
      refine List.pairwise_append.mpr ⟨?_, ?_, ?_⟩
      · exact (ih sorted).imp grown
      · split <;> simp
      · intro first inFirst second isSecond
        split at isSecond
        · cases isSecond
        · next fresh =>
            obtain rfl := List.mem_singleton.mp isSecond
            obtain ⟨⟨place, value⟩, among, rfl⟩ := List.mem_map.mp (List.mem_eraseDups.mp inFirst)
            refine grown ⟨place, among, fun other present => ?_⟩
            exact absurd (List.contains_iff_mem.mpr (List.mem_map_of_mem present)) fresh

end

/-! ## Places of references -/

/-- The references to sheets that a run follows from the document at a place: all of them, or those
that it is told to use if the document is the first. -/
def followed (options : Options) (place : Nat) (document : Document) : List String :=
  if options.sheets.isEmpty then Usage.sheetReferences document.html
  else if place = 0 then options.sheets else []

/-- Whether a reference leads to a location, by its place: that of a document, and its own in the
document.  It is made at the location of the document, but at the empty one in the document that is
given as a text. -/
def LeadsTo (options : Options) (documents : List Document) (place : Nat × Nat)
    (location : String) : Prop :=
  ∃ document reference, documents[place.1]? = some document ∧
    (followed options place.1 document)[place.2]? = some reference ∧
    Location.resolve (if document.location = extraLocation then "" else document.location)
      reference options.lookup = .ok location

/-- Whether a place is before another one: in an earlier document, or earlier in the same. -/
def Earlier (first second : Nat × Nat) : Prop :=
  first.1 < second.1 ∨ first.1 = second.1 ∧ first.2 < second.2

/-- The references that a run follows, with their places. -/
def placedReferences (options : Options) (documents : List Document) :
    List ((Nat × Nat) × Reference) :=
  documents.zipIdx.flatMap fun placed =>
    (followed options placed.2 placed.1).zipIdx.map fun reference =>
      ((placed.2, reference.2), ⟨sourceOf placed.1, reference.1⟩)

variable (options : Options) (documents : List Document)

theorem map_snd_placed (place : Nat) (document : Document) :
    ((followed options place document).zipIdx.map fun reference =>
        ((place, reference.2), Reference.mk (sourceOf document) reference.1)).map Prod.snd =
      (followed options place document).map (Reference.mk (sourceOf document)) := by
  conv_rhs => rw [← List.zipIdx_map_fst 0 (followed options place document), List.map_map]
  exact List.map_map

theorem map_snd_placedReferences :
    (placedReferences options documents).map Prod.snd = references options documents := by
  rw [placedReferences, references, List.map_flatMap]
  simp only [map_snd_placed]
  simp only [followed]
  split
  · conv_rhs => rw [← List.zipIdx_map_fst 0 documents, List.flatMap_map]
  · cases documents with
    | nil => rfl
    | cons first rest =>
        have others : (rest.zipIdx 1).flatMap (fun placed =>
            (if placed.2 = 0 then options.sheets else []).map
              (Reference.mk (sourceOf placed.1))) = [] := by
          refine List.flatMap_eq_nil_iff.mpr fun placed among => ?_
          have place := List.le_snd_of_mem_zipIdx among
          rw [if_neg (by omega), List.map_nil]
        rw [List.zipIdx_cons, List.flatMap_cons, others]
        simp

theorem pairwise_zipIdx {α : Type} (values : List α) (start : Nat) :
    (values.zipIdx start).Pairwise fun first second => first.2 < second.2 := by
  have places : ((values.zipIdx start).map Prod.snd).Pairwise (· < ·) := by
    rw [List.zipIdx_map_snd]
    exact List.pairwise_lt_range'
  exact List.pairwise_map.mp places

theorem sorted_placedReferences :
    ((placedReferences options documents).map Prod.fst).Pairwise Earlier := by
  rw [List.pairwise_map, placedReferences, List.pairwise_flatMap]
  constructor
  · intro placed _
    exact List.pairwise_map.mpr ((pairwise_zipIdx _ 0).imp fun before => .inr ⟨rfl, before⟩)
  · refine (pairwise_zipIdx documents 0).imp fun before => ?_
    simp only [List.forall_mem_map]
    exact fun _ _ _ _ => .inl before

theorem mem_placedReferences {place : Nat × Nat} {reference : Reference} :
    (place, reference) ∈ placedReferences options documents ↔
      ∃ document, documents[place.1]? = some document ∧ reference.source = sourceOf document ∧
        (followed options place.1 document)[place.2]? = some reference.reference := by
  simp only [placedReferences, List.mem_flatMap, List.mem_map, List.mem_zipIdx_iff_getElem?]
  constructor
  · rintro ⟨⟨document, _⟩, here, ⟨text, _⟩, there, same⟩
    obtain ⟨rfl, rfl⟩ := Prod.mk.inj same
    exact ⟨document, here, rfl, there⟩
  · rintro ⟨document, here, source, there⟩
    refine ⟨(document, place.1), here, (reference.reference, place.2), there, ?_⟩
    rw [← source]

/-! ## Locations -/

/-- The locations that references lead to, with their places. -/
def placedLocations : List ((Nat × Nat) × String) :=
  (placedReferences options documents).filterMap fun placed =>
    (placed.2.resolve options).toOption.map (placed.1, ·)

theorem mem_placedLocations {place : Nat × Nat} {location : String} :
    (place, location) ∈ placedLocations options documents ↔
      LeadsTo options documents place location := by
  rw [placedLocations, List.mem_filterMap]
  constructor
  · rintro ⟨⟨other, reference⟩, placed, leads⟩
    obtain ⟨found, resolved, same⟩ := Option.map_eq_some_iff.mp leads
    obtain ⟨rfl, rfl⟩ := Prod.mk.inj same
    obtain ⟨document, here, source, there⟩ := (mem_placedReferences options documents).mp placed
    refine ⟨document, reference.reference, here, there, ?_⟩
    rw [← sourceOf, ← source]
    exact eq_ok_of_toOption resolved
  · rintro ⟨document, reference, here, there, resolved⟩
    refine ⟨(place, ⟨sourceOf document, reference⟩),
      (mem_placedReferences options documents).mpr ⟨document, here, rfl, there⟩, ?_⟩
    simp only [Reference.resolve, sourceOf, resolved, Except.toOption, Option.map_some]

theorem sorted_placedLocations :
    ((placedLocations options documents).map Prod.fst).Pairwise Earlier := by
  have sorted := List.pairwise_map.mp (sorted_placedReferences options documents)
  rw [List.pairwise_map, placedLocations, List.pairwise_filterMap]
  refine sorted.imp fun earlier first isFirst second isSecond => ?_
  obtain ⟨_, _, rfl⟩ := Option.map_eq_some_iff.mp isFirst
  obtain ⟨_, _, rfl⟩ := Option.map_eq_some_iff.mp isSecond
  exact earlier

theorem map_snd_placedLocations {found : List String}
    (resolved : (references options documents).mapM (Reference.resolve options) = .ok found) :
    (placedLocations options documents).map Prod.snd = found := by
  rw [mapM_eq_ok, ← map_snd_placedReferences, List.map_map] at resolved
  have kept := congrArg (List.filterMap Except.toOption) resolved
  rw [List.filterMap_map, List.filterMap_map] at kept
  rw [placedLocations, List.map_filterMap]
  simp only [Option.map_map, Function.comp_def, Option.map_id'] at kept ⊢
  exact kept.trans List.filterMap_some

/-- The sheets of a run: no location twice, just those that a reference leads to and no pattern is
found in, and in the order in which they are first referred to. -/
structure Lists (options : Options) (documents : List Document) (locations : List String) :
    Prop where
  once : locations.Nodup
  mem_iff : ∀ location, location ∈ locations ↔
    (∃ place, LeadsTo options documents place location) ∧
      ∀ source ∈ options.skip, ∀ pattern, Pattern.read source = .ok pattern →
        pattern.foundIn location = false
  inOrder : locations.Pairwise fun first second =>
    ∃ place, LeadsTo options documents place first ∧
      ∀ other, LeadsTo options documents other second → Earlier place other

theorem sheetLocations_eq_ok {locations : List String} :
    sheetLocations options documents = .ok locations ↔
      ∃ found patterns,
        (references options documents).mapM (Reference.resolve options) = .ok found ∧
        skipPatterns options = .ok patterns ∧
        locations = found.eraseDups.filter (!isSkipped patterns ·) := by
  rw [sheetLocations, referredSheets]
  constructor
  · intro located
    obtain ⟨all, referred, located⟩ := bind_eq_ok located
    obtain ⟨patterns, read, located⟩ := bind_eq_ok located
    obtain ⟨found, resolved, rfl⟩ := map_eq_ok (mapError_eq_ok.mp referred)
    exact ⟨found, patterns, resolved, mapError_eq_ok.mp read, (Except.ok.inj located).symm⟩
  · rintro ⟨found, patterns, resolved, read, rfl⟩
    rw [resolved, read]
    rfl

theorem isSkipped_eq_false {patterns : List Pattern} (read : skipPatterns options = .ok patterns)
    (location : String) :
    isSkipped patterns location = false ↔
      ∀ source ∈ options.skip, ∀ pattern, Pattern.read source = .ok pattern →
        pattern.foundIn location = false := by
  rw [skipPatterns, mapM_eq_ok] at read
  rw [isSkipped, List.any_eq_false]
  constructor
  · intro missed source among pattern reads
    have isRead : Except.ok pattern ∈ patterns.map (Except.ok (ε := Pattern.Failure)) := by
      rw [← read, ← reads]
      exact List.mem_map_of_mem (f := fun source => Pattern.read source) among
    obtain ⟨_, isPattern, same⟩ := List.mem_map.mp isRead
    cases same
    exact Bool.eq_false_iff.mpr (missed pattern isPattern)
  · intro missed pattern isPattern
    have isRead : Except.ok pattern ∈ options.skip.map fun source => Pattern.read source := by
      rw [read]
      exact List.mem_map_of_mem isPattern
    obtain ⟨source, among, reads⟩ := List.mem_map.mp isRead
    exact Bool.eq_false_iff.mp (missed source among pattern reads)

theorem lists_of_eq_ok {locations : List String}
    (located : sheetLocations options documents = .ok locations) :
    Lists options documents locations := by
  obtain ⟨found, patterns, resolved, read, rfl⟩ :=
    (sheetLocations_eq_ok options documents).mp located
  have first := pairwise_eraseDups (sorted_placedLocations options documents)
  rw [map_snd_placedLocations options documents resolved] at first
  have inOrder := (first.filter (!isSkipped patterns ·)).imp fun {first second} before =>
    show ∃ place, LeadsTo options documents place first ∧
        ∀ other, LeadsTo options documents other second → Earlier place other by
      simpa only [mem_placedLocations] using before
  refine ⟨inOrder.imp ?_, fun location => ?_, inOrder⟩
  · rintro first _ ⟨place, leads, earlier⟩ rfl
    rcases earlier place leads with before | ⟨-, before⟩ <;> exact absurd before (Nat.lt_irrefl _)
  · rw [List.mem_filter, List.mem_eraseDups, Bool.not_eq_true', isSkipped_eq_false options read,
      ← map_snd_placedLocations options documents resolved]
    simp only [List.mem_map, Prod.exists, exists_eq_right, mem_placedLocations]

/-- Whether every reference that a run follows leads somewhere. -/
def Resolves (options : Options) (documents : List Document) : Prop :=
  ∀ place document, documents[place]? = some document →
    ∀ reference ∈ followed options place document,
      (Location.resolve (if document.location = extraLocation then "" else document.location)
        reference options.lookup).isOk = true

/-- Whether every pattern of the locations to skip can be read. -/
def ReadsSkips (options : Options) : Prop :=
  ∀ source ∈ options.skip, (Pattern.read source).isOk = true

variable {options documents}

theorem resolves_iff :
    Resolves options documents ↔
      ∀ reference ∈ references options documents, (reference.resolve options).isOk = true := by
  rw [← map_snd_placedReferences]
  constructor
  · intro resolves reference among
    obtain ⟨⟨place, _⟩, placed, rfl⟩ := List.mem_map.mp among
    obtain ⟨document, here, source, there⟩ := (mem_placedReferences options documents).mp placed
    rw [Reference.resolve, source]
    exact resolves place.1 document here _ (List.mem_of_getElem? there)
  · intro resolves place document here reference among
    obtain ⟨position, there⟩ := List.getElem?_of_mem among
    have placed : ((place, position), ⟨sourceOf document, reference⟩) ∈
        placedReferences options documents :=
      (mem_placedReferences options documents).mpr ⟨document, here, rfl, there⟩
    exact resolves ⟨sourceOf document, reference⟩ (List.mem_map_of_mem placed)

theorem exists_resolved (resolves : Resolves options documents) :
    ∃ found, (references options documents).mapM (Reference.resolve options) = .ok found :=
  exists_mapM (Reference.resolve options) (resolves_iff.mp resolves)

theorem exists_locations (resolves : Resolves options documents) (reads : ReadsSkips options) :
    ∃ locations, sheetLocations options documents = .ok locations := by
  obtain ⟨found, resolved⟩ := exists_resolved resolves
  obtain ⟨patterns, read⟩ : ∃ patterns, skipPatterns options = .ok patterns :=
    exists_mapM (fun source => Pattern.read source) reads
  exact ⟨_, (sheetLocations_eq_ok options documents).mpr ⟨found, patterns, resolved, read, rfl⟩⟩

/-- Without sheets that it is told to use, a run that is given further documents takes their sheets
after those of the others. -/
theorem sheetLocations_append {more : List Document} {locations : List String}
    (own : options.sheets = []) (resolves : Resolves options more)
    (located : sheetLocations options documents = .ok locations) :
    ∃ later, sheetLocations options (documents ++ more) = .ok (locations ++ later) := by
  obtain ⟨found, patterns, resolved, read, rfl⟩ :=
    (sheetLocations_eq_ok options documents).mp located
  obtain ⟨others, resolvedOthers⟩ := exists_resolved resolves
  have split : references options (documents ++ more) =
      references options documents ++ references options more := by
    simp only [references, own, List.isEmpty_nil, if_true, List.flatMap_append]
  refine ⟨((others.removeAll found).eraseDups).filter (!isSkipped patterns ·),
    (sheetLocations_eq_ok options _).mpr ⟨found ++ others, patterns, ?_, read, ?_⟩⟩
  · rw [mapM_eq_ok] at resolved resolvedOthers ⊢
    rw [split, List.map_append, resolved, resolvedOthers, List.map_append]
  · rw [List.eraseDups_append, List.filter_append]

/-- Skipping locations leaves the others in their order. -/
theorem sheetLocations_skip {locations : List String}
    (located : sheetLocations options documents = .ok locations) :
    ∃ all, sheetLocations { options with skip := [] } documents = .ok all ∧
      locations.Sublist all := by
  obtain ⟨found, patterns, resolved, read, rfl⟩ :=
    (sheetLocations_eq_ok options documents).mp located
  have unskipped : sheetLocations { options with skip := [] } documents = .ok found.eraseDups :=
    (sheetLocations_eq_ok _ documents).mpr ⟨found, [], resolved, rfl,
      (List.filter_eq_self.mpr fun _ _ => rfl).symm⟩
  exact ⟨found.eraseDups, unskipped, List.filter_sublist⟩

/-! ## Fetching the sheets -/

open Fetch (Act Target)

/-- Whether an act is the one that a location is fetched by: a request for the address of the
location, or reading the file. -/
def IsFor (client : Fetch.Client) (location : String) : Act → Prop
  | .send request =>
      Location.isUrl location = true ∧ ∃ target, Target.parse location.toList = .ok target ∧
        request = ⟨String.ofList target.rooted.write, client.requestHeaders⟩
  | .read path => Location.isUrl location = false ∧ path = location

/-- Whether what is answered for a location leads on to another target. -/
def IsRedirected (world : Fetch.World) (location : String) : Prop :=
  Location.isUrl location = true ∧ ∃ target next, Target.parse location.toList = .ok target ∧
    Fetch.Redirects world target.rooted next

/-- A text that can be had without being redirected is fetched by one act. -/
theorem acts_eq_singleton {world : Fetch.World} {client : Fetch.Client} {location : String}
    (succeeds : (Fetch.fetch world client location).outcome.isOk = true)
    (direct : ¬IsRedirected world location) :
    ∃ act, (Fetch.fetch world client location).acts = [act] ∧ IsFor client location act := by
  cases isWeb : Location.isUrl location with
  | false =>
      rw [Fetch.fetch, isWeb]
      exact ⟨.read location, rfl, isWeb, rfl⟩
  | true =>
      rw [Fetch.fetch, if_pos isWeb, Fetch.Client.request] at succeeds ⊢
      split at succeeds
      · cases succeeds
      · next sendable =>
          cases parsed : Target.parse location.toList with
          | error error => rw [parsed] at succeeds; cases succeeds
          | ok target =>
              have once := Fetch.asked_of_direct world Fetch.redirectionLimit fun next redirects =>
                direct ⟨isWeb, target, next, parsed, redirects⟩
              rw [if_neg sendable]
              simp only [once, List.map_singleton]
              exact ⟨_, rfl, isWeb, target, parsed, rfl⟩

/-- Texts that can all be had without being redirected are fetched by one act each, in their
order. -/
theorem forall₂_acts {world : Fetch.World} {client : Fetch.Client} {locations : List String}
    (succeed : ∀ location ∈ locations, (Fetch.fetch world client location).outcome.isOk = true)
    (direct : ∀ location ∈ locations, ¬IsRedirected world location) :
    List.Forall₂ (IsFor client) locations (Fetch.fetchAll world client locations).acts := by
  rw [Fetch.fetchAll_eq]
  induction locations with
  | nil => exact .nil
  | cons location rest ih =>
      obtain ⟨act, isAct, isFor⟩ := acts_eq_singleton (succeed location List.mem_cons_self)
        (direct location List.mem_cons_self)
      rw [List.flatMap_cons, isAct]
      exact .cons isFor (ih (fun other among => succeed other (List.mem_cons_of_mem _ among))
        fun other among => direct other (List.mem_cons_of_mem _ among))

/-- If all references lead somewhere and all patterns can be read, the sheets of a run are the
locations that a reference in a document leads to (or, if the run is told which sheets to use, one
of these from the first document) and no pattern is found in, each of them once and in the order
in which they are first referred to.  So further documents only add sheets at the end, and skipping
some leaves the others in their order.  Every run that comes to a result has the sheets of its
documents, and fetches them after what it does for its documents: by one act each, a request or the
reading of a file, and in their order, if none of them is redirected. -/
theorem sheetLocations_inOrder (options : Options) :
    (∀ documents, Resolves options documents → ReadsSkips options →
      ∃ locations, sheetLocations options documents = .ok locations ∧
        Lists options documents locations ∧
        (options.sheets = [] → ∀ more, Resolves options more →
          ∃ later, sheetLocations options (documents ++ more) = .ok (locations ++ later)) ∧
        ∃ all, sheetLocations { options with skip := [] } documents = .ok all ∧
          locations.Sublist all) ∧
      ∀ world sources pages result, (run world options sources pages).result = .ok result →
        ∃ texts, (Fetch.fetchAll world options.client sources).outcome = .ok texts ∧
          sheetLocations options (documentsOf options sources texts) = .ok result.report.sheets ∧
          Lists options (documentsOf options sources texts) result.report.sheets ∧
          ((∀ location ∈ result.report.sheets, ¬IsRedirected world location) →
            ∃ each, List.Forall₂ (IsFor options.client) result.report.sheets each ∧
              (run world options sources pages).journal.acts =
                (Fetch.fetchAll world options.client sources).acts ++ each) := by
  constructor
  · intro documents resolves reads
    obtain ⟨locations, located⟩ := exists_locations resolves reads
    exact ⟨locations, located, lists_of_eq_ok options documents located,
      fun own more others => sheetLocations_append own others located,
      sheetLocations_skip located⟩
  · intro world sources pages result ended
    obtain ⟨course, rfl, acts⟩ := exists_course ended
    refine ⟨course.texts, course.fetched, course.found, lists_of_eq_ok options _ course.found,
      fun direct => ?_⟩
    have succeed := (Fetch.isOk_fetchAll world options.client course.locations).mp
      (by rw [course.sheetsFetched]; rfl)
    exact ⟨_, forall₂_acts succeed direct, acts⟩

/-- A world with one document, which links a sheet beside it, where all other files and all texts on
the network are empty. -/
def linkedWorld : Fetch.World where
  directory := "/d"
  files := fun path =>
    .file (if path = "p/q.html" then Text.encodeUtf8 "<link rel=stylesheet href=r.css>" else [])
  network := fun _ => .response {}

/-- A text that links one sheet twice, one on the network, and one to be skipped. -/
def linkingOptions : Options where
  skip := ["x"]
  extraHtml := "<link rel=stylesheet href=a><link rel=stylesheet href=x>" ++
    "<link rel=stylesheet href=http://b><link rel=stylesheet href=./a>"

/-- The sheet of the document is looked for where the document is, and the one that the text links
twice is read once.  All sheets follow the document, in their order. -/
theorem sheetLocations_inOrder_linked :
    ∃ documents texts result locations,
      (Fetch.fetchAll linkedWorld {} ["p/q.html"]).outcome = .ok texts ∧
      documents = documentsOf linkingOptions ["p/q.html"] texts ∧
      (Resolves linkingOptions documents ∧ ReadsSkips linkingOptions ∧
        sheetLocations linkingOptions documents = .ok locations ∧
          Lists linkingOptions documents locations) ∧
      (run linkedWorld linkingOptions ["p/q.html"] []).result = .ok result ∧
      result.report.sheets = ["p/r.css", "a", "http://b"] ∧
      ∃ each, List.Forall₂ (IsFor {}) ["p/r.css", "a", "http://b"] each ∧
        (run linkedWorld linkingOptions ["p/q.html"] []).journal.acts =
          .read "p/q.html" :: each := by
  have fetched : (Fetch.fetchAll linkedWorld {} ["p/q.html"]).outcome =
      .ok ["<link rel=stylesheet href=r.css>"] := by
    decide +kernel
  have resolves : Resolves linkingOptions (documentsOf linkingOptions ["p/q.html"]
      ["<link rel=stylesheet href=r.css>"]) :=
    resolves_iff.mpr (by decide +kernel)
  have reads : ReadsSkips linkingOptions := by
    intro source among
    obtain rfl := List.mem_singleton.mp among
    decide +kernel
  have sheets : (run linkedWorld linkingOptions ["p/q.html"] []).result.toOption.map
      (·.report.sheets) = some ["p/r.css", "a", "http://b"] := by
    decide +kernel
  obtain ⟨result, told, isSheets⟩ := Option.map_eq_some_iff.mp sheets
  have ended := eq_ok_of_toOption told
  obtain ⟨listed, runs⟩ := sheetLocations_inOrder linkingOptions
  obtain ⟨locations, located, lists, _⟩ := listed _ resolves reads
  obtain ⟨_, _, _, _, fetches⟩ := runs linkedWorld ["p/q.html"] [] result ended
  have direct : ∀ location ∈ result.report.sheets, ¬IsRedirected linkedWorld location := by
    -- no text says to look elsewhere
    rintro location _ ⟨_, target, next, _, response, place, _, asked, points, _⟩
    have plain : response = {} := by
      simp only [Fetch.ask, linkedWorld] at asked
      split at asked
      · cases asked
      · split at asked
        · cases asked
        · exact (Fetch.Reply.response.inj asked).symm
    rw [plain] at points
    cases points
  obtain ⟨each, isEach, acts⟩ := fetches direct
  have first : (Fetch.fetchAll linkedWorld linkingOptions.client ["p/q.html"]).acts =
      [.read "p/q.html"] := by
    decide +kernel
  rw [isSheets] at isEach
  rw [first] at acts
  exact ⟨_, _, result, locations, fetched, rfl, ⟨resolves, reads, located, lists⟩, ended, isSheets,
    each, isEach, acts⟩

end StyleSieve.Run
