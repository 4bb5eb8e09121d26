import StyleSieve.Proofs.Sheet.Sifting
import StyleSieve.Proofs.Usage.Collecting
import StyleSieve.Usage.Scripted

/-!
# What a reduction does to a sheet

A reduction either sifts its sheet once, by the answers about all documents, or
fails and leaves the sheet alone.  It fails for the first value that cannot be
kept before anything is asked, and otherwise for the failure that comes first,
after every document has been asked the same question.
-/

namespace StyleSieve.Usage

variable {δ σ ε : Type}

/-! ## Reductions that succeed -/

/-- Whether a normal selector is among the answers that some jobs end with. -/
def isReported (jobs : List (Job ε (List String))) (normalized : String) : Bool :=
  jobs.any fun job =>
    match job.outcome with
    | .ok answer => answer.contains normalized
    | .error _ => false

/-- Whether a selector stays: its normal form starts like an at-rule, or is to
be kept, or is reported for some document. -/
def stays (entries : List Selector.KeepEntry) (jobs : List (Job ε (List String)))
    (selector : String) : Bool :=
  let normalized := Selector.normalize selector
  normalized.toList.head? == some '@' || Selector.isKept entries normalized ||
    isReported jobs normalized

/-- The selectors gathered from all answers are those that are reported. -/
theorem contains_gathered (jobs : List (Job ε (List String))) (normalized : String) :
    (jobs.filterMap (·.outcome.toOption)).flatten.eraseDups.contains normalized =
      isReported jobs normalized := by
  rw [Bool.eq_iff_iff, List.contains_iff_mem, List.mem_eraseDups]
  induction jobs with
  | nil => simp [isReported]
  | cons job rest ih =>
      rw [isReported, List.any_cons, Bool.or_eq_true, ← isReported, ← ih]
      cases outcome : job.outcome with
      | error failure => simp [outcome, Except.toOption]
      | ok answer => simp [outcome, Except.toOption]

theorem isWanted_gathered (entries : List Selector.KeepEntry)
    (jobs : List (Job ε (List String))) :
    Selector.isWanted entries (jobs.filterMap (·.outcome.toOption)).flatten.eraseDups =
      stays entries jobs := by
  funext selector
  simp only [Selector.isWanted, stays, contains_gathered]

/-- Where every question is answered, usage is what all answers report. -/
theorem usage_of_answered (oracle : Oracle δ σ ε) (documents : List δ)
    (sheet : Stylesheet) (state : σ)
    (answered : ∀ job ∈ (oracle.collectJobs (question sheet) documents state).1,
      job.outcome.isOk = true) :
    oracle.usage documents sheet state =
      (.ok ((oracle.collectJobs (question sheet) documents state).1.filterMap
          (·.outcome.toOption)).flatten.eraseDups,
        (oracle.collectJobs (question sheet) documents state).2) := by
  rw [Oracle.usage_eq, gather_of_isOk answered]
  rfl

/-- A reduction that succeeds filters its sheet once, by what is used. -/
theorem reduce_of_usage {oracle : Oracle δ σ ε} {documents : List δ} {sheet : Stylesheet}
    {keep : List Selector.KeepValue} {entries : List Selector.KeepEntry} {used : List String}
    {state after : σ} (builds : Selector.keepEntries keep = .ok entries)
    (told : oracle.usage documents sheet state = (.ok used, after)) :
    reduce oracle documents sheet keep state = (.ok (sheet.filter entries used), after) := by
  rw [reduce_eq, builds]
  simp only [told]

/-- A reduction whose documents are all answered about sifts its sheet once. -/
theorem reduce_eq_sift {oracle : Oracle δ σ ε} {documents : List δ} {sheet : Stylesheet}
    {keep : List Selector.KeepValue} {entries : List Selector.KeepEntry} {state : σ}
    (builds : Selector.keepEntries keep = .ok entries)
    (answered : ∀ job ∈ (oracle.collectJobs (question sheet) documents state).1,
      job.outcome.isOk = true) :
    reduce oracle documents sheet keep state =
      (.ok (sheet.sift (stays entries
          (oracle.collectJobs (question sheet) documents state).1)),
        (oracle.collectJobs (question sheet) documents state).2) := by
  rw [reduce_of_usage builds (usage_of_answered oracle documents sheet state answered),
    Stylesheet.filter, isWanted_gathered, Stylesheet.keepOnly_eq_sift]

/-- A reduction whose documents are all answered about sifts its sheet in one
pass, and so keeps or deletes each selector by itself. -/
theorem reduce_sifts (oracle : Oracle δ σ ε) (documents : List δ) (sheet : Stylesheet)
    (keep : List Selector.KeepValue) (entries : List Selector.KeepEntry) (state : σ)
    (builds : Selector.keepEntries keep = .ok entries)
    (answered : ∀ job ∈ (oracle.collectJobs (question sheet) documents state).1,
      job.outcome.isOk = true) :
    let asked := oracle.collectJobs (question sheet) documents state
    let reduced := sheet.sift (stays entries asked.1)
    reduce oracle documents sheet keep state = (.ok reduced, asked.2) ∧
      reduced.occurrences =
        sheet.occurrences.filter fun occurrence => stays entries asked.1 occurrence.selector := by
  intro asked reduced
  exact ⟨reduce_eq_sift builds answered, Stylesheet.occurrences_sift _ sheet⟩

/-- A sheet with a nested media rule and a selector that stands twice, reduced by
two documents and a selector to be kept. -/
theorem reduce_sifts_nested :
    let sheet : Stylesheet := ⟨[.media "print" [.style [".a:hover", ".b", ".a:hover"] ["c: d"],
      .media "all" [.style [".b"] []]], .style [".k"] ["e: f"]]⟩
    let reduced : Stylesheet :=
      ⟨[.media "print" [.style [".a:hover", ".a:hover"] ["c: d"]], .style [".k"] ["e: f"]]⟩
    (reduce scriptedOracle [⟨"x", 2, .matching [".a"]⟩, ⟨"y", 0, .returns ["z"]⟩] sheet
      [.text ".k"] []).1 = .ok reduced ∧ reduced.occurrences.length = 3 := by
  have sifted := reduce_sifts scriptedOracle
    [⟨"x", 2, .matching [".a"]⟩, ⟨"y", 0, .returns ["z"]⟩]
    ⟨[.media "print" [.style [".a:hover", ".b", ".a:hover"] ["c: d"],
      .media "all" [.style [".b"] []]], .style [".k"] ["e: f"]]⟩
    [.text ".k"] [.exact ".k"] [] rfl (by decide)
  exact ⟨congrArg Prod.fst sifted.1, rfl⟩

/-! ## Reductions that fail -/

/-- Whether a script makes the oracle fail. -/
def Script.fails? : Script → Bool
  | .fails _ => true
  | .returns _ | .matching _ => false

/-- The job that a script starts. -/
def ScriptedDocument.job (document : ScriptedDocument) (selectors : List String) :
    Job ScriptedFailure (List String) :=
  ⟨document.ticks, document.script.answer document.location selectors⟩

theorem isOk_answer (script : Script) (document : String) (selectors : List String) :
    (script.answer document selectors).isOk = !script.fails? := by
  cases script <;> rfl

theorem collectJob_scripted {selectors : List String} (some : selectors ≠ [])
    (document : ScriptedDocument) (asked : List Question) :
    scriptedOracle.collectJob document selectors asked =
      (document.job selectors, asked ++ [⟨document.location, selectors⟩]) := by
  have isAsked : selectors.isEmpty = false := by simpa using some
  rw [Oracle.collectJob, isAsked]
  rfl

/-- A question with selectors is asked about every document, in order. -/
theorem collectJobs_scripted {selectors : List String} (some : selectors ≠ [])
    (documents : List ScriptedDocument) (asked : List Question) :
    scriptedOracle.collectJobs selectors documents asked =
      (documents.map (·.job selectors), asked ++ documents.map (⟨·.location, selectors⟩)) := by
  induction documents generalizing asked with
  | nil => simp [Oracle.collectJobs]
  | cons document rest ih =>
      rw [Oracle.collectJobs]
      simp only [collectJob_scripted some, ih, List.map_cons, List.append_assoc,
        List.singleton_append]

/-- The first value that cannot be kept decides the error of a list. -/
theorem keepEntries_append {before : List Selector.KeepValue} {value : Selector.KeepValue}
    {after : List Selector.KeepValue} {error : Selector.KeepError}
    (good : ∀ other ∈ before, ∃ entry, other.toEntry = .ok entry)
    (bad : value.toEntry = .error error) :
    Selector.keepEntries (before ++ value :: after) = .error error := by
  induction before with
  | nil =>
      rw [List.nil_append, Selector.keepEntries, List.mapM_cons, bad]
      rfl
  | cons first rest ih =>
      obtain ⟨entry, reads⟩ := good first List.mem_cons_self
      have later := ih fun other member => good other (List.mem_cons_of_mem _ member)
      rw [Selector.keepEntries] at later ⊢
      rw [List.cons_append, List.mapM_cons, reads, later]
      rfl

/-- The document at one place is answered about before the one at another. -/
def AnsweredBefore (documents : List ScriptedDocument) (first second : Nat) : Prop :=
  ∃ early late, documents[first]? = some early ∧ documents[second]? = some late ∧
    (early.ticks < late.ticks ∨ early.ticks = late.ticks ∧ first < second)

theorem answeredBefore_of_endsBefore {documents : List ScriptedDocument}
    {selectors : List String} {first second : Nat}
    (before : EndsBefore (documents.map (·.job selectors)) first second) :
    AnsweredBefore documents first second := by
  obtain ⟨early, late, atFirst, atSecond, ordered⟩ := before
  rw [List.getElem?_map, Option.map_eq_some_iff] at atFirst atSecond
  obtain ⟨early, atFirst, rfl⟩ := atFirst
  obtain ⟨late, atSecond, rfl⟩ := atSecond
  exact ⟨early, late, atFirst, atSecond, ordered⟩

/-- The failure that scripted documents gather is that of the one whose turn
comes first among those that fail. -/
theorem gather_scripted {documents : List ScriptedDocument} (selectors : List String)
    (fails : ∃ document ∈ documents, document.script.fails? = true) :
    ∃ place document message, documents[place]? = some document ∧
      document.script = .fails message ∧
      gather (documents.map (·.job selectors)) = .error ⟨document.location, message⟩ ∧
      ∀ other rival, documents[other]? = some rival → rival.script.fails? = true →
        other = place ∨ AnsweredBefore documents place other := by
  obtain ⟨culprit, member, isFailure⟩ := fails
  have someFails : ∃ job ∈ documents.map (·.job selectors), job.outcome.isOk = false :=
    ⟨_, List.mem_map_of_mem member, by rw [ScriptedDocument.job, isOk_answer, isFailure]; rfl⟩
  obtain ⟨place, job, failure, found, outcome, gathered, least⟩ := gather_of_failure someFails
  rw [List.getElem?_map, Option.map_eq_some_iff] at found
  obtain ⟨document, found, rfl⟩ := found
  obtain ⟨location, ticks, script⟩ := document
  cases script with
  | returns | matching => cases outcome
  | fails message =>
      obtain rfl : ⟨location, message⟩ = failure := Except.error.inj outcome
      refine ⟨place, _, message, found, rfl, gathered, ?_⟩
      intro other rival atOther rivalFails
      have earlier := least other (rival.job selectors) (by rw [List.getElem?_map, atOther]; rfl)
        (by rw [ScriptedDocument.job, isOk_answer, rivalFails]; rfl)
      exact earlier.imp_right answeredBefore_of_endsBefore

/-- The tasks of asking about scripted documents leave their jobs, and one question for each
document. -/
theorem beginTasks_scripted {sheet : Stylesheet} (nonempty : sheet.selectors ≠ [])
    (documents : List ScriptedDocument) (asked : List Question) :
    beginTasks (documents.map scriptedOracle.collectTask) ⟨sheet, asked⟩ =
      (documents.map (·.job (question sheet)),
        ⟨sheet, asked ++ documents.map (⟨·.location, question sheet⟩)⟩) := by
  have isQuestion : question sheet ≠ [] := by simpa [question] using nonempty
  rw [Oracle.beginTasks_collectTask, collectJobs_scripted isQuestion]

/-- The documents that are answered about without failure in a number of rounds. -/
theorem mem_completed_scripted {sheet : Stylesheet} (nonempty : sheet.selectors ≠ [])
    {documents : List ScriptedDocument} {asked : List Question} {count place : Nat} :
    place ∈ ((Gathering.start (documents.map scriptedOracle.collectTask)
        ⟨sheet, asked⟩).rounds count).completed ↔
      ∃ document, documents[place]? = some document ∧ document.ticks < count ∧
        document.script.fails? = false := by
  rw [Gathering.mem_completed_rounds, beginTasks_scripted nonempty]
  constructor
  · rintro ⟨job, found, inTime, succeeds⟩
    rw [List.getElem?_map, Option.map_eq_some_iff] at found
    obtain ⟨document, found, rfl⟩ := found
    rw [ScriptedDocument.job, isOk_answer, Bool.not_eq_true'] at succeeds
    exact ⟨document, found, inTime, succeeds⟩
  · rintro ⟨document, found, inTime, succeeds⟩
    refine ⟨document.job (question sheet), by rw [List.getElem?_map, found]; rfl, inTime, ?_⟩
    rw [ScriptedDocument.job, isOk_answer, succeeds]
    rfl

/-- A reduction that fails leaves its sheet as it was.  A value that cannot be kept is found before
anything is asked.  Otherwise, if some document fails, all documents are asked in the first round.
The failure that is raised is the one whose turn comes first, and it is raised in the round in which
the last document is answered about, when all others have been answered about in the order of their
turns. -/
theorem reduce_all_or_nothing (documents : List ScriptedDocument) (sheet : Stylesheet)
    (keep : List Selector.KeepValue) (asked : List Question) :
    let attempt := (Work.reduce scriptedOracle documents keep).on ⟨sheet, asked⟩
    let gathering := Gathering.start (documents.map scriptedOracle.collectTask) ⟨sheet, asked⟩
    (∀ before value after error, keep = before ++ value :: after →
        (∀ other ∈ before, ∃ entry, other.toEntry = .ok entry) →
        value.toEntry = .error error → attempt = (.error (.keep error), ⟨sheet, asked⟩)) ∧
      (∀ entries, Selector.keepEntries keep = .ok entries → sheet.selectors ≠ [] →
        (∃ document ∈ documents, document.script.fails? = true) →
        ∃ place culprit message, documents[place]? = some culprit ∧
          culprit.script = .fails message ∧
          (∀ other rival, documents[other]? = some rival → rival.script.fails? = true →
            other = place ∨ AnsweredBefore documents place other) ∧
          attempt = (.error (.usage ⟨culprit.location, message⟩),
            ⟨sheet, asked ++ documents.map
              (⟨·.location, sheet.selectors.map Selector.normalize⟩)⟩) ∧
          ∀ count, (gathering.rounds (count + 1)).state = attempt.2 ∧
            (gathering.rounds count).gathered? =
              (if ∀ document ∈ documents, document.ticks < count then
                some (.error ⟨culprit.location, message⟩) else none) ∧
            (gathering.rounds count).completed.Nodup ∧
            (gathering.rounds count).completed.Pairwise (AnsweredBefore documents) ∧
            ∀ other, other ∈ (gathering.rounds count).completed ↔
              ∃ document, documents[other]? = some document ∧ document.ticks < count ∧
                document.script.fails? = false) := by
  intro attempt gathering
  refine ⟨?_, ?_⟩
  · intro before value after error split good bad
    simp only [attempt, Work.on_reduce, split, keepEntries_append good bad]
  · intro entries builds nonempty fails
    have isQuestion : question sheet ≠ [] := by simpa [question] using nonempty
    have begun := beginTasks_scripted nonempty documents asked
    obtain ⟨place, culprit, message, found, isFailure, gathered, least⟩ :=
      gather_scripted (question sheet) fails
    have failed : attempt = (.error (.usage ⟨culprit.location, message⟩),
        ⟨sheet, asked ++ documents.map (⟨·.location, question sheet⟩)⟩) := by
      simp only [attempt, Work.on_reduce, builds, Oracle.usage_eq,
        collectJobs_scripted isQuestion, gathered]
      rfl
    refine ⟨place, culprit, message, found, isFailure, least, failed, fun count => ⟨?_, ?_, ?_⟩⟩
    · rw [failed, (Gathering.rounds_start _ _ count).2.1, begun]
    · rw [Gathering.gathered?_rounds, begun, gathered]
      simp only [List.forall_mem_map]
      rfl
    · have ordered := Gathering.pairwise_completed_rounds
        (documents.map scriptedOracle.collectTask) ⟨sheet, asked⟩ count
      rw [begun] at ordered
      exact ⟨ordered.imp EndsBefore.ne, ordered.imp answeredBefore_of_endsBefore,
        fun other => mem_completed_scripted nonempty⟩

/-- A list with a value that cannot be kept, and four documents of which the second and the third
fail.  The third one fails first, but only after the first one, the slowest, has completed. -/
theorem reduce_all_or_nothing_instance :
    let sheet : Stylesheet := ⟨[.media "print" [.style [".a:hover"] ["c: d"]]]⟩
    let documents : List ScriptedDocument :=
      [⟨"w", 3, .matching []⟩, ⟨"x", 2, .fails "late"⟩, ⟨"y", 1, .fails "soon"⟩,
        ⟨"z", 2, .returns [".a"]⟩]
    let gathering := Gathering.start (documents.map scriptedOracle.collectTask) ⟨sheet, []⟩
    (Work.reduce scriptedOracle documents [.text ".k", .other .null]).on ⟨sheet, []⟩ =
        (.error (.keep (.unusable .null)), ⟨sheet, []⟩) ∧
      (Work.reduce scriptedOracle documents [.text ".k"]).on ⟨sheet, []⟩ =
        (.error (.usage ⟨"y", "soon"⟩),
          ⟨sheet, [⟨"w", [".a"]⟩, ⟨"x", [".a"]⟩, ⟨"y", [".a"]⟩, ⟨"z", [".a"]⟩]⟩) ∧
      (gathering.rounds 3).gathered? = none ∧ (gathering.rounds 3).completed = [3] ∧
      (gathering.rounds 4).gathered? = some (.error ⟨"y", "soon"⟩) ∧
      (gathering.rounds 4).completed = [3, 0] := by
  intro sheet documents gathering
  have unusable := (reduce_all_or_nothing documents sheet [.text ".k", .other .null] []).1
    [.text ".k"] (.other .null) [] _ rfl
    (by simp [Selector.KeepValue.toEntry, Selector.betweenSlashes?]) rfl
  obtain ⟨place, culprit, message, found, fails, least, failed, rounds⟩ :=
    (reduce_all_or_nothing documents sheet [.text ".k"] []).2
      [.exact ".k"] rfl (by decide) ⟨⟨"y", 1, .fails "soon"⟩, by simp [documents], rfl⟩
  -- of the two that fail, the third one is answered about before the second one
  obtain ⟨rfl, rfl⟩ : culprit = ⟨"y", 1, .fails "soon"⟩ ∧ message = "soon" := by
    rcases place with _ | _ | _ | _ | later
    · cases found; cases fails
    · obtain same | ⟨early, late, isEarly, isLate, order⟩ := least 2 _ rfl rfl
      · cases same
      · cases isEarly
        cases isLate
        simp at order
    · cases found
      cases fails
      exact ⟨rfl, rfl⟩
    · cases found; cases fails
    · cases found
  have waiting : ¬∀ document ∈ documents, document.ticks < 3 := by simp [documents]
  have past : ∀ document ∈ documents, document.ticks < 4 := by simp [documents]
  refine ⟨unusable, failed, ?_, by decide +kernel, ?_, by decide +kernel⟩
  · exact (rounds 3).2.1.trans (if_neg waiting)
  · exact (rounds 4).2.1.trans (if_pos past)

end StyleSieve.Usage
