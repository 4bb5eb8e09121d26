import StyleSieve.Selector.Normal
import StyleSieve.Sheet.Basic
import StyleSieve.Usage.Schedule

/-!
# Oracles

An oracle says which of some selectors match in a document.  It may remember
what it has been asked, take its time, and fail.
-/

namespace StyleSieve.Usage

/-- An oracle for documents of type `δ` that remembers a state of type `σ`.
Asking starts a job, which ends with those of the selectors that match. -/
structure Oracle (δ σ ε : Type) where
  ask : δ → List String → σ → Job ε (List String) × σ

variable {δ σ ε : Type}

/-- The question about a sheet: its selectors in normal form. -/
def question (sheet : Stylesheet) : List String :=
  sheet.selectors.map Selector.normalize

/-- What is worked with: a sheet, and what an oracle remembers. -/
structure Workspace (σ : Type) where
  sheet : Stylesheet
  memory : σ

namespace Oracle

/-- The job of collecting the selectors that one document uses.  Nothing is
asked if there are no selectors. -/
def collectJob (oracle : Oracle δ σ ε) (document : δ) (selectors : List String) (state : σ) :
    Job ε (List String) × σ :=
  if selectors.isEmpty then (⟨0, .ok []⟩, state) else oracle.ask document selectors state

/-- The task of collecting the selectors that one document uses.  The sheet is
looked at in the first turn. -/
def collectTask (oracle : Oracle δ σ ε) (document : δ) :
    Task (Workspace σ) ε (List String) := fun work =>
  let job := oracle.collectJob document (question work.sheet) work.memory
  (job.1, { work with memory := job.2 })

/-- The normal selectors of a sheet that a document uses, without repetition. -/
def collect (oracle : Oracle δ σ ε) (document : δ) (sheet : Stylesheet) (state : σ) :
    Except ε (List String) × σ :=
  let job := oracle.collectJob document (question sheet) state
  (job.1.outcome.map List.eraseDups, job.2)

/-- The normal selectors that some of the documents use, without repetition, and
the workspace when all documents have been asked. -/
def collectAll (oracle : Oracle δ σ ε) (documents : List δ) (work : Workspace σ) :
    Except ε (List String) × Workspace σ :=
  let gathered := gatherTasks (documents.map oracle.collectTask) work
  (gathered.1.map fun answers => answers.flatten.eraseDups, gathered.2)

/-- The normal selectors of a sheet that some of the documents use, without
repetition. -/
def usage (oracle : Oracle δ σ ε) (documents : List δ) (sheet : Stylesheet) (state : σ) :
    Except ε (List String) × σ :=
  let collected := oracle.collectAll documents ⟨sheet, state⟩
  (collected.1, collected.2.memory)

end Oracle

end StyleSieve.Usage
