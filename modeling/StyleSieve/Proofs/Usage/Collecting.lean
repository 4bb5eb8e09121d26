import StyleSieve.Proofs.Usage.Gathering
import StyleSieve.Usage.Reduce

/-!
# Collecting what documents use

The tasks that collect what documents use look at the sheet of their workspace and leave it as it
is.  So what they come to is told by the jobs that the oracle starts if it is asked about one
document after another, and a reduction changes the sheet only after all of these have ended
without failure.
-/

namespace StyleSieve.Usage

variable {δ σ ε α β : Type}

/-! ## Asking about one document after another -/

namespace Oracle

/-- The jobs of collecting the selectors that documents use, started in the
order of the list. -/
def collectJobs (oracle : Oracle δ σ ε) (selectors : List String) :
    List δ → σ → List (Job ε (List String)) × σ
  | [], state => ([], state)
  | document :: rest, state =>
      let first := oracle.collectJob document selectors state
      let others := collectJobs oracle selectors rest first.2
      (first.1 :: others.1, others.2)

/-- The tasks of collecting start these jobs, and leave the sheet alone. -/
theorem beginTasks_collectTask (oracle : Oracle δ σ ε) (documents : List δ)
    (work : Workspace σ) :
    beginTasks (documents.map oracle.collectTask) work =
      ((oracle.collectJobs (question work.sheet) documents work.memory).1,
        { work with
          memory := (oracle.collectJobs (question work.sheet) documents work.memory).2 }) := by
  induction documents generalizing work with
  | nil => rfl
  | cons document rest ih => simp only [List.map_cons, beginTasks, collectTask, ih, collectJobs]

theorem collectAll_eq (oracle : Oracle δ σ ε) (documents : List δ) (work : Workspace σ) :
    oracle.collectAll documents work =
      ((gather (oracle.collectJobs (question work.sheet) documents work.memory).1).map
          fun answers => answers.flatten.eraseDups,
        { work with
          memory := (oracle.collectJobs (question work.sheet) documents work.memory).2 }) := by
  rw [collectAll, gatherTasks_eq, beginTasks_collectTask]

theorem usage_eq (oracle : Oracle δ σ ε) (documents : List δ) (sheet : Stylesheet) (state : σ) :
    oracle.usage documents sheet state =
      ((gather (oracle.collectJobs (question sheet) documents state).1).map
          fun answers => answers.flatten.eraseDups,
        (oracle.collectJobs (question sheet) documents state).2) := by
  rw [usage, collectAll_eq]

end Oracle

/-! ## Steps in a workspace -/

namespace Work

/-- One step after another: the second starts from what the first one leaves, if that has not
failed. -/
theorem on_bind (first : Work σ ε α) (next : α → Work σ ε β) (work : Workspace σ) :
    (first >>= next).on work =
      match first.on work with
      | (.ok value, later) => (next value).on later
      | (.error error, later) => (.error error, later) := by
  change (ExceptT.bindCont next (first.on work).1 : StateM (Workspace σ) _) (first.on work).2 = _
  rcases first.on work with ⟨error | value, later⟩
  · rfl
  · rfl

theorem on_entries (keep : List Selector.KeepValue) (work : Workspace σ) :
    (entries keep : Work σ ε _).on work = ((Selector.keepEntries keep).mapError .keep, work) := by
  rw [entries]
  cases Selector.keepEntries keep <;> rfl

theorem on_told (telling : Workspace σ → Except ε α × Workspace σ) (work : Workspace σ) :
    (told telling).on work = ((telling work).1.mapError .usage, (telling work).2) := by
  rw [told, on_bind]
  change (ofExcept ((telling work).1.mapError .usage) : Work σ ε α).on (telling work).2 = _
  cases (telling work).1 <;> rfl

theorem on_filter (keep : List Selector.KeepEntry) (used : List String) (work : Workspace σ) :
    (filter keep used : Work σ ε Unit).on work =
      (.ok (), { work with sheet := work.sheet.filter keep used }) :=
  rfl

/-- What a reduction comes to, and what it leaves. -/
theorem on_reduce (oracle : Oracle δ σ ε) (documents : List δ) (keep : List Selector.KeepValue)
    (work : Workspace σ) :
    (reduce oracle documents keep).on work =
      match Selector.keepEntries keep with
      | .error error => (.error (.keep error), work)
      | .ok entries =>
          let usage := oracle.usage documents work.sheet work.memory
          match usage.1 with
          | .error failure => (.error (.usage failure), { work with memory := usage.2 })
          | .ok used => (.ok (), ⟨work.sheet.filter entries used, usage.2⟩) := by
  rw [reduce, on_bind, on_entries]
  cases Selector.keepEntries keep with
  | error error => rfl
  | ok entries =>
      change (told (oracle.collectAll documents) >>= filter entries).on work = _
      rw [on_bind, on_told, Oracle.collectAll_eq, Oracle.usage_eq]
      dsimp only
      cases (gather (oracle.collectJobs (question work.sheet) documents work.memory).1).map
        fun answers => answers.flatten.eraseDups with
      | error failure => rfl
      | ok used => exact on_filter entries used _

end Work

/-- A sheet is filtered by what the documents use, unless a value cannot be kept or usage cannot be
told. -/
theorem reduce_eq (oracle : Oracle δ σ ε) (documents : List δ) (sheet : Stylesheet)
    (keep : List Selector.KeepValue) (state : σ) :
    reduce oracle documents sheet keep state =
      match Selector.keepEntries keep with
      | .error error => (.error (.keep error), state)
      | .ok entries =>
          let usage := oracle.usage documents sheet state
          match usage.1 with
          | .error failure => (.error (.usage failure), usage.2)
          | .ok used => (.ok (sheet.filter entries used), usage.2) := by
  rw [reduce, Work.on_reduce]
  cases Selector.keepEntries keep with
  | error error => rfl
  | ok entries =>
      dsimp only
      cases (oracle.usage documents sheet state).1 with
      | error failure => rfl
      | ok used => rfl

end StyleSieve.Usage
