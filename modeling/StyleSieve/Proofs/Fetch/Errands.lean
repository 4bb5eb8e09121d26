import StyleSieve.Proofs.Fetch.Totality
import StyleSieve.Proofs.Usage.Gathering

/-!
# Fetching several texts

Texts are fetched by tasks side by side.  A task does all of its work in its first turn, so what
is done for several texts stands in the order of the texts, whether some fail or not; and it is
told only after the last of them has had its turn.
-/

namespace StyleSieve.Fetch

open Usage (Gathering Job beginTasks gather gatherTasks_eq gather_eq_ok gather_eq_error_of_atOnce
  isOk_gather)

variable (world : World) (client : Client)

/-! ## One text -/

/-- Without redirections only the target itself is asked for. -/
theorem asked_of_direct (remaining : Nat) {target : Target}
    (direct : ∀ next, ¬Redirects world target next) :
    (exchange world remaining target).2 = [String.ofList target.write] := by
  rcases endsAt_or_redirects world remaining target with ⟨reply, ends⟩ | ⟨_, next, redirects⟩
  · rw [exchange_of_endsAt ends]
  · exact absurd redirects (direct next)

/-! ## Several texts -/

/-- The jobs of fetching some texts end at once, and what was done before them is followed by what
is done for each text. -/
theorem beginTasks_fetchTask (locations : List String) (done : List Act) :
    beginTasks (locations.map (fetchTask world client)) done =
      (locations.map fun location => ⟨0, (fetch world client location).outcome⟩,
        done ++ locations.flatMap fun location => (fetch world client location).acts) := by
  induction locations generalizing done with
  | nil => exact Prod.ext rfl (List.append_nil done).symm
  | cons location rest ih =>
      simp only [List.map_cons, beginTasks, fetchTask, ih, List.flatMap_cons, List.append_assoc]

/-- Fetching some texts, before their first turns. -/
def begun (locations : List String) : Gathering (List Act) Failure String :=
  .start (locations.map (fetchTask world client)) []

/-- After turns of the first texts, what is done for them has been done, and nothing else. -/
theorem state_turns (locations : List String) {count : Nat} (inside : count ≤ locations.length) :
    ((begun world client locations).turns (List.range count)).state =
      (locations.take count).flatMap fun location => (fetch world client location).acts := by
  have within : count ≤ (begun world client locations).members.length := by
    rwa [begun, Gathering.start, List.length_map, List.length_map]
  obtain ⟨-, state, -⟩ := (begun world client locations).turns_range within
  rw [state, begun, Gathering.start, ← List.map_take, ← List.map_take,
    Usage.Member.beginAll_fresh, beginTasks_fetchTask, List.nil_append]

/-- Before the last text has had its turn, nothing is told. -/
theorem gathered?_turns (locations : List String) {count : Nat}
    (before : count < locations.length) :
    ((begun world client locations).turns (List.range count)).gathered? = none := by
  have waits := (Gathering.waits_start (locations.map (fetchTask world client)) []).turns
    (List.range count)
  rw [← Option.not_isSome_iff_eq_none, begun, Gathering.gathered?_isSome waits]
  intro allEnd
  have inside : count ≤ (begun world client locations).members.length := by
    rw [begun, Gathering.start, List.length_map, List.length_map]
    exact Nat.le_of_lt before
  obtain ⟨members, -, -⟩ := (begun world client locations).turns_range inside
  rw [begun] at members
  -- the text whose turn is next has not begun
  have next : Usage.Member.fresh (fetchTask world client locations[count]) ∈
      ((Gathering.start (locations.map (fetchTask world client)) []).turns
        (List.range count)).members := by
    rw [members, Gathering.start, ← List.map_drop, ← List.map_drop,
      List.drop_eq_getElem_cons before]
    exact List.mem_append_right _ List.mem_cons_self
  cases allEnd _ next

theorem fetchAll_eq (locations : List String) :
    fetchAll world client locations =
      ⟨gather (locations.map fun location => ⟨0, (fetch world client location).outcome⟩),
        locations.flatMap fun location => (fetch world client location).acts⟩ := by
  rw [fetchAll, gatherTasks_eq, beginTasks_fetchTask, List.nil_append]

/-- After the first round all is done and told, and further rounds change nothing. -/
theorem rounds_begun (locations : List String) (count : Nat) :
    ((begun world client locations).rounds (count + 1)).state =
        (fetchAll world client locations).acts ∧
      ((begun world client locations).rounds (count + 1)).gathered? =
        some (fetchAll world client locations).outcome := by
  rw [begun, fetchAll_eq, (Gathering.rounds_start _ _ count).2.1, Gathering.gathered?_rounds,
    beginTasks_fetchTask]
  refine ⟨List.nil_append _, if_pos ?_⟩
  simp

theorem isOk_fetchAll (locations : List String) :
    (fetchAll world client locations).outcome.isOk = true ↔
      ∀ location ∈ locations, (fetch world client location).outcome.isOk = true := by
  rw [fetchAll_eq, isOk_gather, List.forall_mem_map]

theorem fetchAll_eq_ok {locations texts : List String} :
    (fetchAll world client locations).outcome = .ok texts ↔
      locations.map (fun location => (fetch world client location).outcome) = texts.map .ok := by
  rw [fetchAll_eq, gather_eq_ok, List.map_map]
  rfl

theorem fetchAll_eq_error {locations : List String} {failure : Failure} :
    (fetchAll world client locations).outcome = .error failure ↔
      ∃ before location after, locations = before ++ location :: after ∧
        (∀ earlier ∈ before, (fetch world client earlier).outcome.isOk = true) ∧
        (fetch world client location).outcome = .error failure := by
  rw [fetchAll_eq, gather_eq_error_of_atOnce (by simp)]
  constructor
  · rintro ⟨before, job, after, split, succeed, fails⟩
    obtain ⟨first, others, rfl, rfl, isOthers⟩ := List.map_eq_append_iff.1 split
    obtain ⟨location, last, rfl, rfl, rfl⟩ := List.map_eq_cons_iff.1 isOthers
    exact ⟨first, location, last, rfl, fun earlier member =>
      succeed _ (List.mem_map_of_mem member), fails⟩
  · rintro ⟨before, location, after, rfl, succeed, fails⟩
    refine ⟨_, _, _, List.map_append, ?_, fails⟩
    exact List.forall_mem_map.2 succeed

theorem requests_fetchAll (locations : List String) :
    (fetchAll world client locations).requests =
      locations.flatMap fun location => (fetch world client location).requests := by
  rw [fetchAll_eq, Fetched.requests, List.filterMap_flatMap]
  rfl

/-- Texts that are fetched side by side all come to what they come to alone.  After each turn of
the first round, what is done for the texts so far has been done, in their order and whether some
fail or not, and nothing is told before the last of them has had its turn; later rounds change
nothing.  The texts are had in their order just if each of them can be had alone; otherwise the
failure is that of the first one that fails. -/
theorem fetchAll_completes (world : World) (client : Client) (locations : List String) :
    let alone := fetch world client
    let together := fetchAll world client locations
    (∀ count ≤ locations.length,
        let met := (begun world client locations).turns (List.range count)
        met.state = (locations.take count).flatMap (fun location => (alone location).acts) ∧
          met.gathered? = if count = locations.length then some together.outcome else none) ∧
      (∀ count, let met := (begun world client locations).rounds (count + 1)
        met.state = together.acts ∧ met.gathered? = some together.outcome) ∧
      together.acts = locations.flatMap (fun location => (alone location).acts) ∧
      together.requests = locations.flatMap (fun location => (alone location).requests) ∧
      (∀ texts, together.outcome = .ok texts ↔
        locations.map (fun location => (alone location).outcome) = texts.map .ok) ∧
      (together.outcome.isOk = true ↔
        ∀ location ∈ locations, (alone location).outcome.isOk = true) ∧
      ∀ failure, together.outcome = .error failure ↔
        ∃ before location after, locations = before ++ location :: after ∧
          (∀ earlier ∈ before, (alone earlier).outcome.isOk = true) ∧
          (alone location).outcome = .error failure := by
  intro alone together
  refine ⟨fun count inside => ⟨state_turns world client locations inside, ?_⟩,
    rounds_begun world client locations, congrArg Fetched.acts (fetchAll_eq world client locations),
    requests_fetchAll world client locations, fun texts => fetchAll_eq_ok world client,
    isOk_fetchAll world client locations, fun failure => fetchAll_eq_error world client⟩
  split
  · next last =>
      have first := (rounds_begun world client locations 0).2
      have length : (begun world client locations).members.length = locations.length := by
        rw [begun, Gathering.start, List.length_map, List.length_map]
      rw [last, ← length]
      exact first
  · next notLast =>
      exact gathered?_turns world client locations (Nat.lt_of_le_of_ne inside notLast)

/-- The second of three texts is not there; the first is redirected, and the third is read all the
same. -/
theorem fetchAll_completes_past :
    let locations := ["http://a.b/q.css", "s.css", "./p.css"]
    let sent (address : String) : Act := .send ⟨address, ({} : Client).requestHeaders⟩
    let acts := [sent "http://a.b/q.css", sent "http://a.b/p.css", .read "s.css", .read "./p.css"]
    let first := (begun smallWorld {} locations).turns (List.range 2)
    let last := (begun smallWorld {} locations).turns (List.range 3)
    let failure := Failure.unavailable ⟨"s.css", .unopened "/home/s.css"⟩
    first.state = acts.take 3 ∧ first.gathered? = none ∧
      last.state = acts ∧ last.gathered? = some (.error failure) ∧
      (fetchAll smallWorld {} locations).acts = acts := by
  intro locations sent acts first last failure
  obtain ⟨turns, -, done, -, -, -, fails⟩ := fetchAll_completes smallWorld {} locations
  have each : locations.map (fun location => (fetch smallWorld {} location).acts) =
      [acts.take 2, [.read "s.css"], [.read "./p.css"]] := by decide +kernel
  have isFailure : (fetchAll smallWorld {} locations).outcome = .error failure :=
    (fails failure).2 ⟨["http://a.b/q.css"], "s.css", ["./p.css"], rfl, by decide +kernel,
      by decide +kernel⟩
  have byTurns (count : Nat) : (locations.take count).flatMap
      (fun location => (fetch smallWorld {} location).acts) =
        ([acts.take 2, [.read "s.css"], [.read "./p.css"]].take count).flatten := by
    rw [← each, ← List.map_take]
    rfl
  obtain ⟨firstState, firstTold⟩ := turns 2 (by decide)
  obtain ⟨lastState, lastTold⟩ := turns 3 (by decide)
  refine ⟨firstState.trans (byTurns 2), firstTold, lastState.trans (byTurns 3),
    lastTold.trans (congrArg some isFailure), done.trans (byTurns 3)⟩

end StyleSieve.Fetch
