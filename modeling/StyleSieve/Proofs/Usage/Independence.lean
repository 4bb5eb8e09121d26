import Mathlib.Data.List.Permutation
import StyleSieve.Proofs.Sheet.Pruning
import StyleSieve.Proofs.Usage.Reduction

/-!
# Selectors decided one by one

An oracle that answers from a document and a question alone gives the same answer at any
time and in any company.  A reduction by it depends neither on the times nor on the order
in which the documents are listed; and if it decides every selector of a question by
itself, the fate of a selector does not depend on the rest of the sheet either.
-/

namespace StyleSieve.Usage

open Selector (KeepEntry KeepValue keepEntries)

variable {δ σ τ ε : Type}

namespace Oracle

/-- Whether an oracle answers about some documents from the document and the question
alone, whatever it remembers and however long it takes. -/
def Replies (oracle : Oracle δ σ ε) (reply : δ → List String → List String)
    (documents : List δ) : Prop :=
  ∀ document ∈ documents, ∀ selectors state,
    (oracle.ask document selectors state).1.outcome = .ok (reply document selectors)

/-- Whether an oracle reports those selectors of a question that a document uses, where a
predicate says which these are. -/
def IsPointwise (oracle : Oracle δ σ ε) (uses : δ → String → Bool) (documents : List δ) : Prop :=
  oracle.Replies (fun document selectors => selectors.filter (uses document)) documents

/-- Whether a sheet is reduced to another one, whatever the oracle remembers. -/
def Reduces (oracle : Oracle δ σ ε) (documents : List δ) (keep : List KeepValue)
    (sheet reduced : Stylesheet) : Prop :=
  ∀ state, (reduce oracle documents sheet keep state).1 = .ok reduced

/-- The selectors that an oracle reports for a document; none if nothing is asked. -/
def reported (reply : δ → List String → List String) (selectors : List String)
    (document : δ) : List String :=
  if selectors.isEmpty then [] else reply document selectors

theorem outcome_collectJob {oracle : Oracle δ σ ε} {reply : δ → List String → List String}
    {documents : List δ} (replies : oracle.Replies reply documents) {document : δ}
    (member : document ∈ documents) (selectors : List String) (state : σ) :
    (oracle.collectJob document selectors state).1.outcome =
      .ok (reported reply selectors document) := by
  rw [collectJob, reported]
  split
  · rfl
  · exact replies document member selectors state

/-- Every document is answered about, in order. -/
theorem outcomes_collectJobs {oracle : Oracle δ σ ε} {reply : δ → List String → List String}
    {documents : List δ} (replies : oracle.Replies reply documents) (selectors : List String)
    (state : σ) :
    (oracle.collectJobs selectors documents state).1.map (·.outcome) =
      documents.map fun document => .ok (reported reply selectors document) := by
  induction documents generalizing state with
  | nil => rfl
  | cons document rest ih =>
      have others : oracle.Replies reply rest := by
        intro other member
        exact replies other (List.mem_cons_of_mem document member)
      simp only [collectJobs, List.map_cons, ih others,
        outcome_collectJob replies List.mem_cons_self]

theorem isReported_replies {oracle : Oracle δ σ ε} {reply : δ → List String → List String}
    {documents : List δ} (replies : oracle.Replies reply documents) (selectors : List String)
    (state : σ) (normalized : String) :
    isReported (oracle.collectJobs selectors documents state).1 normalized =
      documents.any fun document => (reported reply selectors document).contains normalized := by
  have outcomes := outcomes_collectJobs replies selectors state
  have byOutcome : ∀ jobs : List (Job ε (List String)), isReported jobs normalized =
      (jobs.map (·.outcome)).any fun outcome => outcome.toOption.any (·.contains normalized) := by
    intro jobs
    rw [List.any_map, isReported]
    congr 1
    funext job
    cases outcome : job.outcome <;> simp [outcome, Except.toOption]
  rw [byOutcome, outcomes, List.any_map]
  rfl

/-- Whether a selector stays by what an oracle replies about some documents. -/
def needs (reply : δ → List String → List String) (documents : List δ) (question : List String)
    (entries : List KeepEntry) (selector : String) : Bool :=
  let normalized := Selector.normalize selector
  normalized.toList.head? == some '@' || Selector.isKept entries normalized ||
    documents.any fun document => (reported reply question document).contains normalized

/-- A reduction by replies sifts the sheet by them. -/
theorem Replies.reduces {oracle : Oracle δ σ ε} {reply : δ → List String → List String}
    {documents : List δ} (replies : oracle.Replies reply documents) {keep : List KeepValue}
    {entries : List KeepEntry} (builds : keepEntries keep = .ok entries) (sheet : Stylesheet) :
    oracle.Reduces documents keep sheet
      (sheet.sift (needs reply documents (question sheet) entries)) := by
  intro state
  have answered : ∀ job ∈ (oracle.collectJobs (question sheet) documents state).1,
      job.outcome.isOk = true := by
    intro job member
    have outcome : job.outcome ∈
        (oracle.collectJobs (question sheet) documents state).1.map (·.outcome) :=
      List.mem_map_of_mem member
    rw [outcomes_collectJobs replies] at outcome
    obtain ⟨document, _, same⟩ := List.mem_map.1 outcome
    rw [← same]
    rfl
  have wanted : stays entries (oracle.collectJobs (question sheet) documents state).1 =
      needs reply documents (question sheet) entries := by
    funext selector
    simp only [stays, needs, isReported_replies replies]
  rw [reduce_eq_sift builds answered, wanted]

/-! ## Selectors decided by predicates -/

/-- Whether a selector stays, where a predicate says what each document uses. -/
def isNeeded (uses : δ → String → Bool) (documents : List δ) (entries : List KeepEntry)
    (selector : String) : Bool :=
  let normalized := Selector.normalize selector
  normalized.toList.head? == some '@' || Selector.isKept entries normalized ||
    documents.any (uses · normalized)

/-- What is reported of the selectors of a sheet is what the documents use. -/
theorem needs_pointwise {uses : δ → String → Bool} {documents : List δ} {sheet : Stylesheet}
    (entries : List KeepEntry) {selector : String} (member : selector ∈ sheet.selectors) :
    needs (fun document selectors => selectors.filter (uses document)) documents
      (question sheet) entries selector = isNeeded uses documents entries selector := by
  have asked : Selector.normalize selector ∈ question sheet := List.mem_map_of_mem member
  have some : (question sheet).isEmpty = false := by
    rw [← Bool.not_eq_true, List.isEmpty_iff]
    exact List.ne_nil_of_mem asked
  have same : ∀ document,
      (reported (fun document selectors => selectors.filter (uses document)) (question sheet)
        document).contains (Selector.normalize selector) =
          uses document (Selector.normalize selector) := by
    intro document
    rw [reported, some, if_neg Bool.false_ne_true, Bool.eq_iff_iff, List.contains_iff_mem,
      List.mem_filter]
    exact and_iff_right asked
  simp only [needs, isNeeded, same]

/-- A reduction by a pointwise oracle sifts any sheet by one and the same condition. -/
theorem IsPointwise.reduces {oracle : Oracle δ σ ε} {uses : δ → String → Bool}
    {documents : List δ} (pointwise : oracle.IsPointwise uses documents) {keep : List KeepValue}
    {entries : List KeepEntry} (builds : keepEntries keep = .ok entries) (sheet : Stylesheet) :
    oracle.Reduces documents keep sheet (sheet.sift (isNeeded uses documents entries)) := by
  have sifts := Replies.reduces pointwise builds sheet
  rwa [Stylesheet.sift_congr fun _ member => needs_pointwise entries member] at sifts

/-- The fate of a selector does not depend on the rest of the sheet: sheets are reduced
apart, a second reduction by the same documents changes nothing, and reductions by several
documents and with several lists of selectors to be kept can change places. -/
theorem reduce_selector_by_selector (oracle : Oracle δ σ ε) (uses : δ → String → Bool)
    (documents others : List δ) (pointwise : oracle.IsPointwise uses (documents ++ others))
    (keep keepOthers : List KeepValue) (entries entriesOthers : List KeepEntry)
    (builds : keepEntries keep = .ok entries)
    (buildsOthers : keepEntries keepOthers = .ok entriesOthers) (sheet more : Stylesheet) :
    (∃ reduced reducedMore, oracle.Reduces documents keep sheet reduced ∧
        oracle.Reduces documents keep more reducedMore ∧
        oracle.Reduces documents keep (sheet.append more) (reduced.append reducedMore)) ∧
      (∃ reduced, oracle.Reduces documents keep sheet reduced ∧
        oracle.Reduces documents keep reduced reduced) ∧
      ∃ first second both,
        (oracle.Reduces documents keep sheet first ∧
          oracle.Reduces others keepOthers first both) ∧
        oracle.Reduces others keepOthers sheet second ∧
          oracle.Reduces documents keep second both := by
  have byDocuments : oracle.IsPointwise uses documents := fun document member =>
    pointwise document (List.mem_append_left others member)
  have byOthers : oracle.IsPointwise uses others := fun document member =>
    pointwise document (List.mem_append_right documents member)
  refine ⟨⟨_, _, byDocuments.reduces builds sheet, byDocuments.reduces builds more, ?_⟩,
    ⟨_, byDocuments.reduces builds sheet, ?_⟩,
    ⟨_, _, _, ⟨byDocuments.reduces builds sheet, byOthers.reduces buildsOthers _⟩,
      byOthers.reduces buildsOthers sheet, ?_⟩⟩
  · rw [← Stylesheet.sift_append]
    exact byDocuments.reduces builds _
  · have again := byDocuments.reduces builds
      (sheet.sift (isNeeded uses documents entries))
    rw [Stylesheet.sift_sift] at again
    simpa only [Bool.and_self] using again
  · have swapped := byDocuments.reduces builds
      (sheet.sift (isNeeded uses others entriesOthers))
    rw [Stylesheet.sift_sift] at swapped ⊢
    simpa only [Bool.and_comm] using swapped

/-- Two documents, of which the second one asks for less but keeps more, in both orders. -/
theorem reduce_selector_by_selector_scripted :
    let first : ScriptedDocument := ⟨"x", 2, .matching [".a", ".b"]⟩
    let second : ScriptedDocument := ⟨"y", 0, .matching [".b"]⟩
    let sheet : Stylesheet :=
      ⟨[.media "print" [.style [".a:hover", ".b", ".c"] ["d: e"]], .style [".k"] []]⟩
    let reduced : Stylesheet := ⟨[.media "print" [.style [".a:hover", ".b"] ["d: e"]]]⟩
    let both : Stylesheet := ⟨[.media "print" [.style [".b"] ["d: e"]]]⟩
    (reduce scriptedOracle [first] sheet [] []).1 = .ok reduced ∧
      (reduce scriptedOracle [second] reduced [.text ".k"] []).1 = .ok both ∧
      ∃ between, scriptedOracle.Reduces [second] [.text ".k"] sheet between ∧
        scriptedOracle.Reduces [first] [] between both := by
  intro first second sheet reduced both
  have pointwise : scriptedOracle.IsPointwise
      (fun document selector =>
        match document.script with
        | .matching among => among.contains selector
        | _ => false) ([first] ++ [second]) := by
    intro document member selectors state
    rcases List.mem_cons.1 member with rfl | last
    · rfl
    · cases List.mem_singleton.1 last
      rfl
  obtain ⟨_, _, one, other, met, oneThenOther, otherThenOne⟩ :=
    reduce_selector_by_selector scriptedOracle _ [first] [second] pointwise [] [.text ".k"] []
      [.exact ".k"] rfl rfl sheet ⟨[]⟩
  have isReduced : (reduce scriptedOracle [first] sheet [] []).1 = .ok reduced := by
    rw [reduce_eq]
    cbv
  have isBoth : (reduce scriptedOracle [second] reduced [.text ".k"] []).1 = .ok both := by
    rw [reduce_eq]
    cbv
  cases (oneThenOther.1 []).symm.trans isReduced
  cases (oneThenOther.2 []).symm.trans isBoth
  exact ⟨isReduced, isBoth, other, otherThenOne⟩

end Oracle

end StyleSieve.Usage
