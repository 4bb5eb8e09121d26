import StyleSieve.Proofs.Usage.Rounds
import StyleSieve.Usage.Static

/-!
# What the oracle of fixed markup remembers

The oracle is asked directly, and by the collecting and the reducing that it is used for.
However the questions come, a document is answered about as by a fresh oracle that is asked
about the first document from the same location that has loaded, or about the document
itself if none has.
-/

namespace StyleSieve.Usage

variable {δ σ τ ε : Type}

/-! ## Properties that every question keeps -/

namespace Oracle

/-- Asking about some documents keeps a property of what the oracle remembers. -/
def Keeps (oracle : Oracle δ σ ε) (P : σ → Prop) (documents : List δ) : Prop :=
  ∀ document ∈ documents, ∀ selectors state, P state →
    P (oracle.ask document selectors state).2

theorem Keeps.collectJob {oracle : Oracle δ σ ε} {P : σ → Prop} {document : δ}
    (keeps : oracle.Keeps P [document]) (selectors : List String) {state : σ} (holds : P state) :
    P (oracle.collectJob document selectors state).2 := by
  rw [Oracle.collectJob]
  split
  · exact holds
  · exact keeps document List.mem_cons_self selectors state holds

theorem Keeps.collectJobs {oracle : Oracle δ σ ε} {P : σ → Prop} {documents : List δ}
    (keeps : oracle.Keeps P documents) (selectors : List String) {state : σ} (holds : P state) :
    P (oracle.collectJobs selectors documents state).2 := by
  induction documents generalizing state with
  | nil => exact holds
  | cons document rest ih =>
      have first : oracle.Keeps P [document] := by
        intro other isFirst
        rw [List.mem_singleton] at isFirst
        exact keeps other (isFirst ▸ List.mem_cons_self)
      exact ih (fun other member => keeps other (List.mem_cons_of_mem document member))
        (first.collectJob selectors holds)

theorem snd_reduce (oracle : Oracle δ σ ε) (documents : List δ) (sheet : Stylesheet)
    {keep : List Selector.KeepValue} {entries : List Selector.KeepEntry}
    (builds : Selector.keepEntries keep = .ok entries) (state : σ) :
    (reduce oracle documents sheet keep state).2 =
      (oracle.collectJobs (question sheet) documents state).2 := by
  rw [reduce_eq, builds, usage_eq]
  dsimp only
  cases gather (oracle.collectJobs (question sheet) documents state).1 <;> rfl

/-- A reduction comes to what its jobs come to. -/
theorem fst_reduce_congr {oracle : Oracle δ σ ε} {documents : List δ} {sheet : Stylesheet}
    {state other : σ}
    (sameJobs : (oracle.collectJobs (question sheet) documents state).1 =
      (oracle.collectJobs (question sheet) documents other).1)
    (keep : List Selector.KeepValue) :
    (reduce oracle documents sheet keep state).1 =
      (reduce oracle documents sheet keep other).1 := by
  rw [reduce_eq, reduce_eq]
  cases Selector.keepEntries keep with
  | error error => rfl
  | ok entries =>
      simp only [usage_eq, sameJobs]
      cases gather (oracle.collectJobs (question sheet) documents other).1 <;> rfl

theorem Keeps.reduce {oracle : Oracle δ σ ε} {P : σ → Prop} {documents : List δ}
    (keeps : oracle.Keeps P documents) (sheet : Stylesheet) (keep : List Selector.KeepValue)
    {state : σ} (holds : P state) : P (reduce oracle documents sheet keep state).2 := by
  cases builds : Selector.keepEntries keep with
  | error error =>
      rw [reduce_eq, builds]
      exact holds
  | ok entries =>
      rw [snd_reduce oracle documents sheet builds]
      exact keeps.collectJobs (question sheet) holds

/-- One oracle does what another one does that remembers less. -/
def Mirrors (shadow : Oracle δ τ ε) (oracle : Oracle δ σ ε) (view : τ → σ) : Prop :=
  ∀ document selectors state,
    oracle.ask document selectors (view state) =
      Prod.map id view (shadow.ask document selectors state)

section

variable {shadow : Oracle δ τ ε} {oracle : Oracle δ σ ε} {view : τ → σ}

theorem Mirrors.collectJob (mirrors : shadow.Mirrors oracle view) (document : δ)
    (selectors : List String) (state : τ) :
    oracle.collectJob document selectors (view state) =
      Prod.map id view (shadow.collectJob document selectors state) := by
  rw [Oracle.collectJob, Oracle.collectJob]
  split
  · rfl
  · exact mirrors document selectors state

theorem Mirrors.collectJobs (mirrors : shadow.Mirrors oracle view) (selectors : List String)
    (documents : List δ) (state : τ) :
    oracle.collectJobs selectors documents (view state) =
      Prod.map id view (shadow.collectJobs selectors documents state) := by
  induction documents generalizing state with
  | nil => rfl
  | cons document rest ih =>
      have later := ih (shadow.collectJob document selectors state).2
      simp only [Oracle.collectJobs, mirrors.collectJob, Prod.map_fst, Prod.map_snd, later]
      rfl

theorem Mirrors.reduce (mirrors : shadow.Mirrors oracle view) (documents : List δ)
    (sheet : Stylesheet) (keep : List Selector.KeepValue) (state : τ) :
    reduce oracle documents sheet keep (view state) =
      Prod.map id view (reduce shadow documents sheet keep state) := by
  rw [reduce_eq, reduce_eq]
  cases Selector.keepEntries keep with
  | error error => rfl
  | ok entries =>
      simp only [usage_eq, mirrors.collectJobs, Prod.map_fst, Prod.map_snd, id]
      cases gather (shadow.collectJobs (question sheet) documents state).1 <;> rfl

end

end Oracle

/-! ## Calls and their transcript -/

/-- A call that an oracle of fixed markup is used for. -/
inductive Call where
  | ask (document : Document) (selectors : List String)
  | collect (document : Document) (sheet : Stylesheet)
  | reduce (documents : List Document) (sheet : Stylesheet) (keep : List Selector.KeepValue)

/-- What a call comes to. -/
inductive Reply where
  | told (outcome : Except StaticFailure (List String))
  | reduced (outcome : Except (ReduceError StaticFailure) Stylesheet)

namespace Call

def documents : Call → List Document
  | .ask document _ => [document]
  | .collect document _ => [document]
  | .reduce documents _ _ => documents

/-- What a call comes to, and what the oracle remembers then. -/
def perform (oracle : Oracle Document σ StaticFailure) (state : σ) : Call → Reply × σ
  | .ask document selectors =>
      let asked := oracle.ask document selectors state
      (.told asked.1.outcome, asked.2)
  | .collect document sheet =>
      let collected := oracle.collect document sheet state
      (.told collected.1, collected.2)
  | .reduce documents sheet keep =>
      let reduced := Usage.reduce oracle documents sheet keep state
      (.reduced reduced.1, reduced.2)

/-- What calls come to, one after another, whether they fail or not. -/
def performAll (oracle : Oracle Document σ StaticFailure) : List Call → σ → List Reply × σ
  | [], state => ([], state)
  | call :: rest, state =>
      let first := call.perform oracle state
      let others := performAll oracle rest first.2
      (first.1 :: others.1, others.2)

theorem keeps_perform {oracle : Oracle Document σ StaticFailure} {P : σ → Prop} {call : Call}
    (keeps : oracle.Keeps P call.documents) {state : σ} (holds : P state) :
    P (call.perform oracle state).2 := by
  cases call with
  | ask document selectors => exact keeps document List.mem_cons_self selectors state holds
  | collect document sheet => exact keeps.collectJob (question sheet) holds
  | reduce documents sheet keep => exact keeps.reduce sheet keep holds

theorem keeps_performAll {oracle : Oracle Document σ StaticFailure} {P : σ → Prop}
    {calls : List Call} (keeps : oracle.Keeps P (calls.flatMap documents)) {state : σ}
    (holds : P state) : P (performAll oracle calls state).2 := by
  induction calls generalizing state with
  | nil => exact holds
  | cons call rest ih =>
      rw [List.flatMap_cons] at keeps
      exact ih (fun document member => keeps document (List.mem_append_right _ member))
        (keeps_perform (fun document member => keeps document (List.mem_append_left _ member))
          holds)

theorem perform_of_mirrors {shadow : Oracle Document τ StaticFailure}
    {oracle : Oracle Document σ StaticFailure} {view : τ → σ}
    (mirrors : shadow.Mirrors oracle view) (call : Call) (state : τ) :
    call.perform oracle (view state) = Prod.map id view (call.perform shadow state) := by
  cases call with
  | ask document selectors => simp only [perform, mirrors document, Prod.map]; rfl
  | collect document sheet =>
      simp only [perform, Oracle.collect, mirrors.collectJob, Prod.map]
      rfl
  | reduce documents sheet keep =>
      simp only [perform, mirrors.reduce, Prod.map]
      rfl

theorem performAll_of_mirrors {shadow : Oracle Document τ StaticFailure}
    {oracle : Oracle Document σ StaticFailure} {view : τ → σ}
    (mirrors : shadow.Mirrors oracle view) (calls : List Call) (state : τ) :
    performAll oracle calls (view state) = Prod.map id view (performAll shadow calls state) := by
  induction calls generalizing state with
  | nil => rfl
  | cons call rest ih =>
      have later := ih (call.perform shadow state).2
      simp only [performAll, perform_of_mirrors mirrors, Prod.map_fst, Prod.map_snd, later]
      rfl

end Call

/-- A question with the answer to it. -/
structure Exchange where
  document : Document
  selectors : List String
  outcome : Except StaticFailure (List String)

/-- An oracle that also keeps a transcript of all questions and answers. -/
def Oracle.transcribed (oracle : Oracle Document σ StaticFailure) :
    Oracle Document (σ × List Exchange) StaticFailure where
  ask document selectors state :=
    let asked := oracle.ask document selectors state.1
    (asked.1, asked.2, state.2 ++ [⟨document, selectors, asked.1.outcome⟩])

/-- Keeping a transcript changes no answer. -/
theorem Oracle.mirrors_transcribed (oracle : Oracle Document σ StaticFailure) :
    oracle.transcribed.Mirrors oracle Prod.fst := fun _ _ _ => rfl

/-- The questions of a call, in order.  There are none about a sheet without selectors, nor
if something cannot be kept. -/
def Call.questions : Call → List (Document × List String)
  | .ask document selectors => [(document, selectors)]
  | .collect document sheet => Oracle.questions [document] sheet
  | .reduce documents sheet keep =>
      match Selector.keepEntries keep with
      | .error _ => []
      | .ok _ => Oracle.questions documents sheet

theorem Call.perform_logged (oracle : Oracle Document σ StaticFailure) (call : Call) (state : σ)
    (log : List (Document × List String)) :
    (call.perform oracle.logged (state, log)).2.2 = log ++ call.questions := by
  cases call with
  | ask document selectors => rfl
  | collect document sheet =>
      have job := Oracle.collectJobs_logged oracle sheet [document] state log
      exact congrArg (·.2.2) job
  | reduce documents sheet keep =>
      simp only [perform, questions]
      cases builds : Selector.keepEntries keep with
      | error error =>
          rw [reduce_eq, builds]
          exact (List.append_nil log).symm
      | ok entries => exact Oracle.reduce_logged oracle sheet documents builds state log

theorem Call.performAll_logged (oracle : Oracle Document σ StaticFailure) (calls : List Call)
    (state : σ) (log : List (Document × List String)) :
    (performAll oracle.logged calls (state, log)).2.2 = log ++ calls.flatMap questions := by
  induction calls generalizing state log with
  | nil => exact (List.append_nil log).symm
  | cons call rest ih =>
      have first := call.perform_logged oracle state log
      rw [performAll, List.flatMap_cons, ← List.append_assoc, ← first]
      exact ih _ _

/-- A transcript holds the questions of all calls, in order. -/
theorem Call.performAll_transcribed (oracle : Oracle Document σ StaticFailure)
    (calls : List Call) (state : σ) :
    (performAll oracle.transcribed calls (state, [])).2.2.map
        (fun exchange => (exchange.document, exchange.selectors)) =
      calls.flatMap questions := by
  let questionsOnly (state : σ × List Exchange) : σ × List (Document × List String) :=
    (state.1, state.2.map fun exchange => (exchange.document, exchange.selectors))
  have mirrors : oracle.transcribed.Mirrors oracle.logged questionsOnly := by
    intro document selectors state
    simp [questionsOnly, Oracle.logged, Oracle.transcribed]
  have all := performAll_of_mirrors mirrors calls (state, [])
  have log := performAll_logged oracle calls state []
  rw [List.nil_append] at log
  rw [← log]
  exact (congrArg (·.2.2) all).symm

/-! ## What the pages hold -/

/-- Whether a document loads.  Blank markup does. -/
def Document.loads (document : Document) : Bool :=
  document.places?.isSome

/-- The first of some documents that comes from a location and loads. -/
def firstFrom? (asked : List Document) (location : String) : Option Document :=
  asked.find? fun earlier => earlier.location == location && earlier.loads

/-- The document that a document is answered for: the first one asked about that comes from
the same location and loads, or else the document itself. -/
def standIn (asked : List Document) (document : Document) : Document :=
  (firstFrom? asked document.location).getD document

/-- The pages hold, for every location, the places of the first document asked about that
comes from there and loads. -/
def Pages.Hold (pages : Pages) (asked : List Document) : Prop :=
  ∀ location, pages.lookup location = (firstFrom? asked location).bind Document.places?

theorem hold_nil : Pages.Hold [] [] := fun _ => rfl

theorem firstFrom?_append (asked : List Document) (document : Document) (location : String) :
    firstFrom? (asked ++ [document]) location =
      (firstFrom? asked location).or
        (if document.location = location ∧ document.loads = true then some document else none) := by
  rw [firstFrom?, List.find?_append, firstFrom?, List.find?_singleton]
  simp

theorem loads_of_firstFrom? {asked : List Document} {location : String} {first : Document}
    (found : firstFrom? asked location = some first) :
    first ∈ asked ∧ first.location = location ∧ first.loads = true := by
  have holds := List.find?_some found
  rw [Bool.and_eq_true, beq_iff_eq] at holds
  exact ⟨List.mem_of_find?_eq_some found, holds⟩

/-- A document is answered about like the one it stands for, by a fresh oracle. -/
theorem Pages.Hold.answer {pages : Pages} {asked : List Document} (hold : pages.Hold asked)
    (document : Document) (selectors : List String) :
    (answer document selectors pages).1 = (answer (standIn asked document) selectors []).1 := by
  have known := hold document.location
  cases found : firstFrom? asked document.location with
  | none =>
      rw [found] at known
      rw [standIn, found, Option.getD_none, Usage.answer, Usage.answer, Engine.answer,
        Engine.answer, Document.load, Document.load, known]
      cases document.places? <;> rfl
  | some first =>
      obtain ⟨-, -, loads⟩ := loads_of_firstFrom? found
      obtain ⟨places, isPlaces⟩ := Option.isSome_iff_exists.1 loads
      rw [found, Option.bind_some, isPlaces] at known
      rw [standIn, found, Option.getD_some, Usage.answer, Usage.answer, Engine.answer,
        Engine.answer, Document.load, Document.load, known, List.lookup_nil, isPlaces]

theorem Pages.Hold.step {pages : Pages} {asked : List Document} (hold : pages.Hold asked)
    (document : Document) (selectors : List String) :
    (Usage.answer document selectors pages).2.Hold (asked ++ [document]) := by
  intro location
  have known := hold document.location
  have others := hold location
  rw [firstFrom?_append, Usage.answer, Engine.answer, Document.load]
  cases seen : pages.lookup document.location with
  | some places =>
      -- Another document from there has been loaded before.
      dsimp only
      rw [others]
      cases found : firstFrom? asked location with
      | some first => rfl
      | none =>
          have elsewhere : document.location ≠ location := by
            rintro rfl
            rw [found, seen] at known
            cases known
          rw [if_neg fun both => elsewhere both.1]
          rfl
  | none =>
      cases loaded : document.places? with
      | none =>
          have fails : ¬(document.location = location ∧ document.loads = true) := by
            simp [Document.loads, loaded]
          rw [if_neg fails, Option.or_none]
          exact others
      | some places =>
          dsimp only
          rw [List.lookup_append, others]
          have loads : document.loads = true := by simp [Document.loads, loaded]
          by_cases here : document.location = location
          · subst here
            rw [seen] at known
            cases found : firstFrom? asked document.location with
            | some first =>
                obtain ⟨-, -, firstLoads⟩ := loads_of_firstFrom? found
                obtain ⟨held, isHeld⟩ := Option.isSome_iff_exists.1 firstLoads
                rw [found, Option.bind_some, isHeld] at known
                cases known
            | none => simp [loads, loaded]
          · have other : (location == document.location) = false :=
              beq_eq_false_iff_ne.2 (Ne.symm here)
            rw [if_neg fun both => here both.1, Option.or_none, List.lookup_cons, other]
            simp

/-! ## Every answer is one of a fresh oracle -/

/-- Every answer is the one of a fresh oracle about the document that the questions before
it have put in the place of the one it is about. -/
def AsIfFresh (transcript : List Exchange) : Prop :=
  ∀ before exchange after, transcript = before ++ exchange :: after →
    exchange.outcome =
      (answer (standIn (before.map (·.document)) exchange.document) exchange.selectors []).1

theorem asIfFresh_nil : AsIfFresh [] := by
  intro before exchange after split
  simp at split

theorem AsIfFresh.append {transcript : List Exchange} (asIfFresh : AsIfFresh transcript)
    {last : Exchange}
    (isFresh : last.outcome =
      (answer (standIn (transcript.map (·.document)) last.document) last.selectors []).1) :
    AsIfFresh (transcript ++ [last]) := by
  intro before exchange after split
  obtain rfl | ⟨earlier, final, rfl⟩ := List.eq_nil_or_concat after
  · obtain ⟨rfl, same⟩ := List.append_inj' split rfl
    cases same
    exact isFresh
  · rw [List.concat_eq_append, ← List.cons_append, ← List.append_assoc] at split
    exact asIfFresh before exchange earlier (List.append_inj' split rfl).1

/-- What holds of the pages and the transcript between any two questions. -/
structure Faithful (state : Pages × List Exchange) : Prop where
  hold : state.1.Hold (state.2.map (·.document))
  asIfFresh : AsIfFresh state.2

theorem faithful_nil : Faithful ([], []) := ⟨hold_nil, asIfFresh_nil⟩

theorem keeps_faithful (documents : List Document) :
    staticOracle.transcribed.Keeps Faithful documents := by
  intro document _ selectors state faithful
  constructor
  · have step := faithful.hold.step document selectors
    simpa [Oracle.transcribed, staticOracle, Engine.oracle, answer] using step
  · exact faithful.asIfFresh.append (faithful.hold.answer document selectors)

/-- Documents of which those from one location have the same markup. -/
def SameMarkup (documents : List Document) : Prop :=
  ∀ first ∈ documents, ∀ second ∈ documents, first.location = second.location →
    first.html = second.html

theorem standIn_of_sameMarkup {asked : List Document} {document : Document}
    (same : ∀ other ∈ asked, other.location = document.location → other.html = document.html) :
    standIn asked document = document := by
  unfold standIn
  cases found : firstFrom? asked document.location with
  | none => rfl
  | some first =>
      obtain ⟨member, sameLocation, -⟩ := loads_of_firstFrom? found
      obtain ⟨location, html⟩ := first
      have sameHtml := same _ member sameLocation
      dsimp only at sameLocation sameHtml
      rw [Option.getD_some, sameLocation, sameHtml]

/-- The pages hold what some documents have left there. -/
def Pages.From (documents : List Document) (pages : Pages) : Prop :=
  ∃ asked, (∀ document ∈ asked, document ∈ documents) ∧ pages.Hold asked

theorem from_nil (documents : List Document) : Pages.From documents [] :=
  ⟨[], nofun, hold_nil⟩

theorem keeps_from (documents : List Document) :
    staticOracle.Keeps (Pages.From documents) documents := by
  rintro document member selectors pages ⟨asked, among, hold⟩
  refine ⟨asked ++ [document], ?_, hold.step document selectors⟩
  intro other isAsked
  obtain isBefore | isLast := List.mem_append.1 isAsked
  · exact among other isBefore
  · rwa [List.mem_singleton.1 isLast]

section

variable {documents : List Document} (same : SameMarkup documents)

include same

/-- Where every location has one markup, every document stands for itself. -/
theorem answer_of_sameMarkup {pages : Pages} (pagesFrom : pages.From documents)
    {document : Document} (member : document ∈ documents) (selectors : List String) :
    (answer document selectors pages).1 = (answer document selectors []).1 := by
  obtain ⟨asked, among, hold⟩ := pagesFrom
  rw [hold.answer, standIn_of_sameMarkup fun other isAsked => same other (among other isAsked)
    document member]

theorem collectJob_of_sameMarkup {pages : Pages} (pagesFrom : pages.From documents)
    {document : Document} (member : document ∈ documents) (selectors : List String) :
    (staticOracle.collectJob document selectors pages).1 =
      (staticOracle.collectJob document selectors []).1 := by
  rw [Oracle.collectJob, Oracle.collectJob]
  split
  · rfl
  · exact congrArg (Job.mk 0) (answer_of_sameMarkup same pagesFrom member selectors)

theorem collectJobs_of_sameMarkup {pages : Pages} (pagesFrom : pages.From documents)
    {some : List Document} (members : ∀ document ∈ some, document ∈ documents)
    (selectors : List String) :
    (staticOracle.collectJobs selectors some pages).1 =
      some.map fun document => (staticOracle.collectJob document selectors []).1 := by
  induction some generalizing pages with
  | nil => rfl
  | cons document rest ih =>
      rw [List.forall_mem_cons] at members
      have keeps : staticOracle.Keeps (Pages.From documents) [document] := fun other isFirst =>
        keeps_from documents other (List.mem_singleton.1 isFirst ▸ members.1)
      rw [Oracle.collectJobs, List.map_cons, ih (keeps.collectJob selectors pagesFrom) members.2,
        collectJob_of_sameMarkup same pagesFrom members.1]

theorem perform_of_sameMarkup {pages : Pages} (pagesFrom : pages.From documents) {call : Call}
    (members : ∀ document ∈ call.documents, document ∈ documents) :
    (call.perform staticOracle pages).1 = (call.perform staticOracle []).1 := by
  cases call with
  | ask document selectors =>
      exact congrArg Reply.told
        (answer_of_sameMarkup same pagesFrom (members document List.mem_cons_self) selectors)
  | collect document sheet =>
      have job := collectJob_of_sameMarkup same pagesFrom (members document List.mem_cons_self)
        (question sheet)
      simp only [Call.perform, Oracle.collect, job]
  | reduce some sheet keep =>
      have jobs := collectJobs_of_sameMarkup same pagesFrom members (question sheet)
      have freshJobs := collectJobs_of_sameMarkup same (from_nil documents) members (question sheet)
      exact congrArg Reply.reduced (Oracle.fst_reduce_congr (jobs.trans freshJobs.symm) keep)

theorem performAll_of_sameMarkup {pages : Pages} (pagesFrom : pages.From documents)
    {calls : List Call}
    (members : ∀ call ∈ calls, ∀ document ∈ call.documents, document ∈ documents) :
    (Call.performAll staticOracle calls pages).1 =
      calls.map fun call => (call.perform staticOracle []).1 := by
  induction calls generalizing pages with
  | nil => rfl
  | cons call rest ih =>
      rw [List.forall_mem_cons] at members
      have keeps : staticOracle.Keeps (Pages.From documents) call.documents :=
        fun document member => keeps_from documents document (members.1 document member)
      rw [Call.performAll, List.map_cons, ih (Call.keeps_perform keeps pagesFrom) members.2,
        perform_of_sameMarkup same pagesFrom members.1]

end

/-- However the oracle of fixed markup has been used before, it answers about a document as
a fresh one would about the first document asked about that comes from the same location and
loads, or about the document itself if there is none.  This holds of the questions that
collecting and reducing ask, one by one, as well as of those asked directly.  If documents
from one location always have the same markup, every call comes to the same as with a fresh
oracle. -/
theorem answers_as_if_fresh (calls : List Call) :
    let called := Call.performAll staticOracle calls []
    let noted := Call.performAll staticOracle.transcribed calls ([], [])
    let transcript := noted.2.2
    (noted.1 = called.1 ∧ noted.2.1 = called.2 ∧
        transcript.map (fun exchange => (exchange.document, exchange.selectors)) =
          calls.flatMap Call.questions) ∧
      AsIfFresh transcript ∧
      (∀ document selectors, (answer document selectors called.2).1 =
        (answer (standIn (transcript.map (·.document)) document) selectors []).1) ∧
      (SameMarkup (calls.flatMap Call.documents) →
        called.1 = calls.map fun call => (call.perform staticOracle []).1) := by
  intro called noted transcript
  have mirrored : called = Prod.map id Prod.fst noted :=
    Call.performAll_of_mirrors staticOracle.mirrors_transcribed calls ([], [])
  have faithful : Faithful noted.2 := Call.keeps_performAll (keeps_faithful _) faithful_nil
  have samePages : noted.2.1 = called.2 := (congrArg Prod.snd mirrored).symm
  refine ⟨⟨(congrArg Prod.fst mirrored).symm, samePages, ?_⟩, faithful.asIfFresh, ?_, ?_⟩
  · exact Call.performAll_transcribed staticOracle calls []
  · intro document selectors
    rw [← samePages]
    exact faithful.hold.answer document selectors
  · intro same
    exact performAll_of_sameMarkup same (from_nil _) fun call isCall document member =>
      List.mem_flatMap.2 ⟨call, isCall, member⟩

/-- A document that fails, a blank one in its place, and a third one that the blank one
answers for. -/
theorem answers_as_if_fresh_stale :
    let fails : Document := ⟨"p.html", "<!-- -->"⟩
    let blank : Document := ⟨"p.html", " "⟩
    let late : Document := ⟨"p.html", "<a></a>"⟩
    let sheet : Stylesheet := ⟨[.style ["a"] ["c: d"]]⟩
    let calls := [.collect fails sheet, .reduce [blank] ⟨[]⟩ [], .reduce [blank, late] sheet []]
    let pages := (Call.performAll staticOracle calls []).2
    fails.places? = none ∧ (answer late ["a"] pages).1 = (answer blank ["a"] []).1 ∧
      (answer blank ["a"] []).1.toOption = some [] ∧
      (answer late ["a"] []).1.toOption = some ["a"] := by
  intro fails blank late sheet calls pages
  have law := (answers_as_if_fresh calls).2.2.1 late ["a"]
  have asked : (Call.performAll staticOracle.transcribed calls ([], [])).2.2.map (·.document) =
      [fails, blank, late] := by
    have questions := (answers_as_if_fresh calls).1.2.2
    have documents := congrArg (List.map Prod.fst) questions
    rw [List.map_map] at documents
    exact documents
  have failed : fails.places? = none := by decide +kernel
  refine ⟨failed, ?_, by decide +kernel, by decide +kernel⟩
  rw [asked] at law
  have standsIn : standIn [fails, blank, late] late = blank := by decide +kernel
  rwa [standsIn] at law

end StyleSieve.Usage
