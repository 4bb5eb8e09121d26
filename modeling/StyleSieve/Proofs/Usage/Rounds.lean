import StyleSieve.Proofs.Usage.Independence

/-!
# Collecting round by round

The tasks that collect what documents use take turns.  A task asks its question in its
first turn, when it looks at the sheet, and then waits for its answer.  So all questions
are asked in the first round, whatever the times are, and the sheet that they are about is
the one before the reduction.
-/

namespace StyleSieve.Usage

variable {δ σ τ ε : Type}

namespace Oracle

/-! ## The questions that are asked -/

/-- An oracle that also keeps a list of the questions it is asked. -/
def logged (oracle : Oracle δ σ ε) : Oracle δ (σ × List (δ × List String)) ε where
  ask document selectors state :=
    let told := oracle.ask document selectors state.1
    (told.1, told.2, state.2 ++ [(document, selectors)])

/-- The questions about a sheet: one for every document, in order, unless there is nothing
to be asked. -/
def questions (documents : List δ) (sheet : Stylesheet) : List (δ × List String) :=
  if sheet.selectors.isEmpty then [] else documents.map (·, question sheet)

/-- Keeping a list of the questions changes no answer. -/
theorem collectJobs_logged (oracle : Oracle δ σ ε) (sheet : Stylesheet) (documents : List δ)
    (state : σ) (log : List (δ × List String)) :
    oracle.logged.collectJobs (question sheet) documents (state, log) =
      ((oracle.collectJobs (question sheet) documents state).1,
        (oracle.collectJobs (question sheet) documents state).2,
        log ++ questions documents sheet) := by
  have sameEmpty : (question sheet).isEmpty = sheet.selectors.isEmpty := List.isEmpty_map
  induction documents generalizing state log with
  | nil => simp [collectJobs, questions]
  | cons document rest ih =>
      have first : oracle.logged.collectJob document (question sheet) (state, log) =
          ((oracle.collectJob document (question sheet) state).1,
            (oracle.collectJob document (question sheet) state).2,
            log ++ questions [document] sheet) := by
        rw [collectJob, collectJob, questions, sameEmpty]
        split
        · simp
        · rfl
      have both : questions [document] sheet ++ questions rest sheet =
          questions (document :: rest) sheet := by
        rw [questions, questions, questions]
        split
        · rfl
        · rfl
      simp only [collectJobs, first, ih, List.append_assoc, both]

theorem reduce_logged (oracle : Oracle δ σ ε) (sheet : Stylesheet) (documents : List δ)
    {keep : List Selector.KeepValue} {entries : List Selector.KeepEntry}
    (builds : Selector.keepEntries keep = .ok entries) (state : σ)
    (log : List (δ × List String)) :
    (reduce oracle.logged documents sheet keep (state, log)).2.2 =
      log ++ questions documents sheet := by
  have settled : (oracle.logged.usage documents sheet (state, log)).2.2 =
      log ++ questions documents sheet := by
    rw [usage_eq, collectJobs_logged]
  rw [reduce_eq, builds]
  dsimp only
  split
  · exact settled
  · exact settled

/-! ## Times and lists of documents -/

theorem needs_congr {documents rearranged : List δ}
    (same : ∀ document, document ∈ documents ↔ document ∈ rearranged)
    (reply : δ → List String → List String) (question : List String)
    (entries : List Selector.KeepEntry) :
    needs reply documents question entries = needs reply rearranged question entries := by
  funext selector
  have sameAny : ∀ uses : δ → Bool, documents.any uses = rearranged.any uses := by
    intro uses
    rw [Bool.eq_iff_iff, List.any_eq_true, List.any_eq_true]
    simp only [same]
  simp only [needs, sameAny]

/-- What a reduction leaves depends neither on how long the oracle takes nor on the order
and the repetitions of the documents.  The questions do not depend on the times either:
there is one for every document, in order, with all selectors of the sheet as it stands
before the reduction, and all of them are asked in the first round. -/
theorem reduce_regardless_of_timing (oracle : Oracle δ σ ε) (other : Oracle δ τ ε)
    (reply : δ → List String → List String) (documents rearranged : List δ)
    (same : ∀ document, document ∈ documents ↔ document ∈ rearranged)
    (replies : oracle.Replies reply documents) (otherReplies : other.Replies reply rearranged)
    (keep : List Selector.KeepValue) (entries : List Selector.KeepEntry)
    (builds : Selector.keepEntries keep = .ok entries) (sheet : Stylesheet) :
    (∃ reduced, oracle.Reduces documents keep sheet reduced ∧
        other.Reduces rearranged keep sheet reduced) ∧
      ∀ state, (reduce oracle.logged documents sheet keep (state, [])).2.2 =
          questions documents sheet ∧
        ∀ count, ((Gathering.start (documents.map oracle.logged.collectTask)
          ⟨sheet, (state, [])⟩).rounds (count + 1)).state.memory.2 = questions documents sheet := by
  refine ⟨⟨_, replies.reduces builds sheet, ?_⟩, ?_⟩
  · rw [needs_congr same]
    exact otherReplies.reduces builds sheet
  · intro state
    constructor
    · exact reduce_logged oracle sheet documents builds state []
    · intro count
      rw [(Gathering.rounds_start _ _ count).2.1, beginTasks_collectTask, collectJobs_logged]
      rfl

/-- The same answers at different times, and documents in another order with a repetition. -/
theorem reduce_regardless_of_timing_scripted :
    let timed (ticks : String → Nat) : Oracle String Nat String :=
      ⟨fun document selectors count =>
        (⟨ticks document, .ok (selectors.filter (· == document))⟩, count + 1)⟩
    let slow := timed fun document => if document = ".a" then 5 else 0
    let quick := timed fun _ => 1
    let sheet : Stylesheet := ⟨[.media "print" [.style [".b", ".a:hover", ".c"] ["d: e"]]]⟩
    (slow.Reduces [".a", ".b"] [] sheet ⟨[.media "print" [.style [".b", ".a:hover"] ["d: e"]]]⟩ ∧
        quick.Reduces [".b", ".a", ".b"] [] sheet
          ⟨[.media "print" [.style [".b", ".a:hover"] ["d: e"]]]⟩) ∧
      ((Gathering.start ([".a", ".b"].map slow.logged.collectTask) ⟨sheet, (0, [])⟩).rounds
        1).state.memory.2 = [(".a", [".b", ".a", ".c"]), (".b", [".b", ".a", ".c"])] := by
  intro timed slow quick sheet
  have same : ∀ document, document ∈ [".a", ".b"] ↔ document ∈ [".b", ".a", ".b"] := by
    intro document
    grind
  obtain ⟨⟨reduced, bySlow, byQuick⟩, asks⟩ :=
    reduce_regardless_of_timing slow quick
      (fun document selectors => selectors.filter (· == document)) [".a", ".b"] [".b", ".a", ".b"]
      same (fun _ _ _ _ => rfl) (fun _ _ _ _ => rfl) [] [] rfl sheet
  have settled : (reduce slow [".a", ".b"] sheet [] 0).1 =
      .ok ⟨[.media "print" [.style [".b", ".a:hover"] ["d: e"]]]⟩ := by
    rw [reduce_eq]
    cbv
  cases (bySlow 0).symm.trans settled
  exact ⟨⟨bySlow, byQuick⟩, (asks 0).2 0⟩

end Oracle

end StyleSieve.Usage
