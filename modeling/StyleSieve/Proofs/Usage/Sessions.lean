import StyleSieve.Proofs.Sheet.Pruning
import StyleSieve.Proofs.Usage.Collecting
import StyleSieve.Usage.Session

/-!
# What sessions keep

A step of a session that fails leaves the sheet alone, and a step that edits the sheet sifts
it.  So the sheet stays a pruning of the one that the session started with, and holds no
empty rule from the first edit on.
-/

namespace StyleSieve.Usage

open Selector (KeepValue keepEntries)

/-- Whether a step is made to change the sheet. -/
def SessionStep.edits : SessionStep → Bool
  | .filter .. | .prune | .reduce .. => true
  | .collect _ | .ask .. | .flatten => false

namespace Session

/-- The session after some steps, whether they succeed or fail. -/
def after (session : Session) (steps : List SessionStep) : Session :=
  steps.foldl (fun met step => (met.perform step).2) session

/-! ## One step -/

/-- A step either sifts the sheet, when it is made to change the sheet and succeeds, or
leaves the sheet alone. -/
theorem perform_cases (session : Session) (step : SessionStep) :
    (step.edits = true ∧ (∃ found, (session.perform step).1 = .ok found) ∧
        ∃ wanted, (session.perform step).2.sheet = session.sheet.sift wanted) ∨
      ((step.edits = true → ∃ error, (session.perform step).1 = .error error) ∧
        (session.perform step).2.sheet = session.sheet) := by
  cases step with
  | filter keep used =>
      rw [perform, SessionStep.work, Work.on_bind, Work.on_entries]
      cases keepEntries keep with
      | error error => exact .inr ⟨fun _ => ⟨_, rfl⟩, rfl⟩
      | ok entries =>
          exact .inl ⟨rfl, ⟨_, rfl⟩, _, Stylesheet.filter_eq_sift entries used session.sheet⟩
  | prune => exact .inl ⟨rfl, ⟨_, rfl⟩, _, Stylesheet.prune_eq_sift session.sheet⟩
  | reduce documents keep =>
      rw [perform, SessionStep.work, Work.on_bind, Work.on_reduce]
      cases keepEntries keep with
      | error error => exact .inr ⟨fun _ => ⟨_, rfl⟩, rfl⟩
      | ok entries =>
          dsimp only
          cases (staticOracle.usage documents session.sheet session.memory).1 with
          | error failure => exact .inr ⟨fun _ => ⟨_, rfl⟩, rfl⟩
          | ok used =>
              exact .inl ⟨rfl, ⟨_, rfl⟩, _, Stylesheet.filter_eq_sift entries used session.sheet⟩
  | collect document =>
      rw [perform, SessionStep.work, Work.on_told]
      exact .inr ⟨nofun, rfl⟩
  | ask document selectors =>
      rw [perform, SessionStep.work, Work.on_told]
      exact .inr ⟨nofun, rfl⟩
  | flatten => exact .inr ⟨nofun, rfl⟩

theorem sheet_of_perform_error {session : Session} {step : SessionStep}
    {error : ReduceError StaticFailure} (fails : (session.perform step).1 = .error error) :
    (session.perform step).2.sheet = session.sheet := by
  rcases session.perform_cases step with ⟨_, ⟨found, succeeds⟩, _⟩ | ⟨_, same⟩
  · rw [succeeds] at fails
    cases fails
  · exact same

theorem isPruningOf_perform (session : Session) (step : SessionStep) :
    (session.perform step).2.sheet.IsPruningOf session.sheet := by
  rcases session.perform_cases step with ⟨_, _, wanted, sifted⟩ | ⟨_, same⟩
  · rw [sifted]
    exact Stylesheet.isPruningOf_sift wanted session.sheet
  · rw [same]
    exact Stylesheet.IsPruningOf.refl session.sheet

theorem isFilled_perform {session : Session} (filled : session.sheet.isFilled = true)
    (step : SessionStep) : (session.perform step).2.sheet.isFilled = true := by
  rcases session.perform_cases step with ⟨_, _, wanted, sifted⟩ | ⟨_, same⟩
  · rw [sifted]
    exact Stylesheet.isFilled_sift wanted session.sheet
  · rw [same]
    exact filled

theorem isFilled_of_edit {session : Session} {step : SessionStep} (edits : step.edits = true)
    {found : List String} (succeeds : (session.perform step).1 = .ok found) :
    (session.perform step).2.sheet.isFilled = true := by
  rcases session.perform_cases step with ⟨_, _, wanted, sifted⟩ | ⟨fails, _⟩
  · rw [sifted]
    exact Stylesheet.isFilled_sift wanted session.sheet
  · obtain ⟨error, failed⟩ := fails edits
    rw [failed] at succeeds
    cases succeeds

/-! ## A whole run -/

theorem after_append (session : Session) (first second : List SessionStep) :
    session.after (first ++ second) = (session.after first).after second :=
  List.foldl_append

theorem after_cons (session : Session) (step : SessionStep) (rest : List SessionStep) :
    session.after (step :: rest) = (session.perform step).2.after rest :=
  rfl

theorem isPruningOf_after (session : Session) (steps : List SessionStep) :
    (session.after steps).sheet.IsPruningOf session.sheet := by
  induction steps generalizing session with
  | nil => exact Stylesheet.IsPruningOf.refl session.sheet
  | cons step rest ih =>
      rw [after_cons]
      exact (ih _).trans (session.isPruningOf_perform step)

theorem isFilled_after {session : Session} (filled : session.sheet.isFilled = true)
    (steps : List SessionStep) : (session.after steps).sheet.isFilled = true := by
  induction steps generalizing session with
  | nil => exact filled
  | cons step rest ih =>
      rw [after_cons]
      exact ih (isFilled_perform filled step)

/-- After any steps the sheet of a session is a pruning of the first one.  None of the
steps changes the sheet if it fails, and once a step that is made to change the sheet has
succeeded, the sheet holds no empty rule. -/
theorem session_prunes (start : Session) (steps : List SessionStep) :
    (start.after steps).sheet.occurrences.Sublist start.sheet.occurrences ∧
      (start.after steps).sheet.verbatims = start.sheet.verbatims ∧
      ∀ before step rest, steps = before ++ step :: rest →
        let met := start.after before
        (∀ error, (met.perform step).1 = .error error →
            (met.perform step).2.sheet = met.sheet) ∧
          (∀ found, step.edits = true → (met.perform step).1 = .ok found →
            (start.after steps).sheet.isFilled = true) := by
  have prunes := start.isPruningOf_after steps
  refine ⟨prunes.occurrences, prunes.verbatims, ?_⟩
  intro before step rest whole met
  constructor
  · intro error fails
    exact sheet_of_perform_error fails
  · intro found edits succeeds
    rw [whole, after_append, after_cons]
    exact isFilled_after (isFilled_of_edit edits succeeds) rest

/-- A session with a filter that fails, a document that uses nothing, and a filter that
empties a media rule inside another one. -/
theorem session_prunes_nested :
    let start : Session := ⟨⟨[.media "print" [.verbatim "@x;", .media "all" [.style [".b"] []],
      .style [".a:hover", ".b", ".k"] ["c: d"]], .style [] []]⟩, []⟩
    let fails : SessionStep := .filter [.other .null] [".b"]
    let edit : SessionStep := .filter [.text ".k"] [".a"]
    let steps := [fails, .collect ⟨"p.html", ""⟩, edit, .flatten]
    let final := (start.after steps).sheet
    ((start.perform fails).1 = .error (.keep (.unusable .null)) ∧
        (start.perform fails).2.sheet = start.sheet) ∧
      final = ⟨[.media "print" [.verbatim "@x;", .style [".a:hover", ".k"] ["c: d"]]]⟩ ∧
      final.occurrences.Sublist start.sheet.occurrences ∧
      final.verbatims = [(["print"], "@x;")] ∧ final.isFilled = true := by
  intro start fails edit steps final
  have run := session_prunes start steps
  have failed : (start.perform fails).1 = .error (.keep (.unusable .null)) := rfl
  have edited : ((start.after [fails, .collect ⟨"p.html", ""⟩]).perform edit).1 = .ok [] := rfl
  have isFinal : (start.after steps).sheet =
      ⟨[.media "print" [.verbatim "@x;", .style [".a:hover", ".k"] ["c: d"]]]⟩ := by
    decide +kernel
  refine ⟨⟨failed, (run.2.2 [] fails _ rfl).1 _ failed⟩, isFinal, run.1, run.2.1,
    (run.2.2 [fails, .collect ⟨"p.html", ""⟩] edit [.flatten] rfl).2 [] rfl edited⟩

end Session

end StyleSieve.Usage
