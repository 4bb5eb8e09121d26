import StyleSieve.Sheet.Filter
import StyleSieve.Usage.Oracle

/-!
# Reducing style sheets

A sheet is reduced in place to what some documents use.  A selector that one
document uses stays for all.
-/

namespace StyleSieve.Usage

/-- Why a sheet cannot be reduced. -/
inductive ReduceError (ε : Type) where
  | keep (error : Selector.KeepError)
  | usage (failure : ε)

/-- Steps in a workspace.  What was done before a failure stays done. -/
abbrev Work (σ ε : Type) := ExceptT (ReduceError ε) (StateM (Workspace σ))

variable {δ σ ε α : Type}

namespace Work

/-- What some steps come to in a workspace, and the workspace after them. -/
def on (steps : Work σ ε α) (work : Workspace σ) : Except (ReduceError ε) α × Workspace σ :=
  (steps.run.run work).run

/-- The entries of a list of what is to be kept. -/
def entries (keep : List Selector.KeepValue) : Work σ ε (List Selector.KeepEntry) :=
  ofExcept ((Selector.keepEntries keep).mapError .keep)

/-- What is told by someone who may work in the workspace, and may fail. -/
def told (telling : Workspace σ → Except ε α × Workspace σ) : Work σ ε α := do
  let answer ← modifyGet telling
  ofExcept (answer.mapError .usage)

/-- A change of the sheet. -/
def change (edit : Stylesheet → Stylesheet) : Work σ ε Unit :=
  modify fun work => { work with sheet := edit work.sheet }

/-- Filtering the sheet: selectors that are neither used nor to be kept are
deleted, and then the rules that are left empty. -/
def filter (keep : List Selector.KeepEntry) (used : List String) : Work σ ε Unit := do
  change (Stylesheet.restrict (Selector.isWanted keep used))
  change Stylesheet.prune

/-- Reducing the sheet to what the documents use and what is to be kept. -/
def reduce (oracle : Oracle δ σ ε) (documents : List δ) (keep : List Selector.KeepValue) :
    Work σ ε Unit := do
  let entries ← entries keep
  let used ← told (oracle.collectAll documents)
  filter entries used

end Work

/-- A sheet reduced to what the documents use and what is to be kept. -/
def reduce (oracle : Oracle δ σ ε) (documents : List δ) (sheet : Stylesheet)
    (keep : List Selector.KeepValue) (state : σ) :
    Except (ReduceError ε) Stylesheet × σ :=
  let ended := (Work.reduce oracle documents keep).on ⟨sheet, state⟩
  (ended.1.map fun _ => ended.2.sheet, ended.2.memory)

end StyleSieve.Usage
