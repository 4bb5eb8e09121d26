import StyleSieve.Usage.Schedule

/-!
# The order in which jobs end

Jobs that run in rounds end in the order of their ticks, and those of one round
in the order of the list.  This order says which failure comes first, and so what
is gathered of the jobs.
-/

namespace StyleSieve.Usage

variable {ε α : Type}

/-- The job at one place ends before the job at another one. -/
def EndsBefore (jobs : List (Job ε α)) (first second : Nat) : Prop :=
  ∃ early late, jobs[first]? = some early ∧ jobs[second]? = some late ∧
    (early.ticks < late.ticks ∨ early.ticks = late.ticks ∧ first < second)

theorem EndsBefore.ne {jobs : List (Job ε α)} {first second : Nat}
    (before : EndsBefore jobs first second) : first ≠ second := by
  rintro rfl
  obtain ⟨early, late, isEarly, isLate, order⟩ := before
  cases isEarly.symm.trans isLate
  omega

/-- The job at a place fails, and ends before all others that fail. -/
def FailsFirst (jobs : List (Job ε α)) (place : Nat) (failure : ε) : Prop :=
  ∃ job, jobs[place]? = some job ∧ job.outcome = .error failure ∧
    ∀ other rival, jobs[other]? = some rival → rival.outcome.isOk = false →
      other = place ∨ EndsBefore jobs place other

/-! ## Jobs by rounds -/

/-- A job with its place in a list of jobs. -/
structure Running (ε α : Type) where
  index : Nat
  ticks : Nat
  outcome : Except ε α

/-- The end of a running job. -/
def Running.ending (running : Running ε α) : Ending ε α :=
  ⟨running.index, running.outcome⟩

/-- Jobs with their places, numbered from `index`. -/
def startFrom (index : Nat) : List (Job ε α) → List (Running ε α)
  | [] => []
  | job :: rest => ⟨index, job.ticks, job.outcome⟩ :: startFrom (index + 1) rest

/-- The number of rounds in which all jobs end. -/
def roundsOf (jobs : List (Job ε α)) : Nat :=
  jobs.foldr (fun job rounds => max (job.ticks + 1) rounds) 0

/-- The jobs that end in a number of rounds, by round; those of one round in the
order of the list. -/
def byRound (rounds : Nat) (running : List (Running ε α)) : List (Running ε α) :=
  (List.range rounds).flatMap fun ticks => running.filter (·.ticks = ticks)

/-- The jobs in the order in which they end. -/
def inOrder (jobs : List (Job ε α)) : List (Running ε α) :=
  byRound (roundsOf jobs) (startFrom 0 jobs)

/-- The ends of all jobs, in their order. -/
def endings (jobs : List (Job ε α)) : List (Ending ε α) :=
  (inOrder jobs).map Running.ending

/-- The failure of an end, if it is one. -/
def Ending.failure? (ending : Ending ε α) : Option ε :=
  match ending.outcome with
  | .error failure => some failure
  | .ok _ => none

/-- The failure that comes first. -/
def firstFailure? (ends : List (Ending ε α)) : Option ε :=
  ends.findSome? Ending.failure?

/-- The values of all jobs in the order of the list, or the failure that comes
first. -/
def gather (jobs : List (Job ε α)) : Except ε (List α) :=
  match firstFailure? (endings jobs) with
  | some failure => .error failure
  | none => .ok (jobs.filterMap fun job => job.outcome.toOption)

theorem mem_byRound {rounds : Nat} {running : List (Running ε α)} {job : Running ε α} :
    job ∈ byRound rounds running ↔ job ∈ running ∧ job.ticks < rounds := by
  simp only [byRound, List.mem_flatMap, List.mem_range, List.mem_filter, decide_eq_true_eq]
  constructor
  · rintro ⟨ticks, inTime, member, rfl⟩
    exact ⟨member, inTime⟩
  · rintro ⟨member, inTime⟩
    exact ⟨job.ticks, inTime, member, rfl⟩

/-- Jobs in the order of the list end by round, and by place within a round. -/
theorem pairwise_byRound (rounds : Nat) {running : List (Running ε α)}
    (ordered : running.Pairwise (·.index < ·.index)) :
    (byRound rounds running).Pairwise fun early late =>
      early.ticks < late.ticks ∨ early.ticks = late.ticks ∧ early.index < late.index := by
  refine List.pairwise_flatMap.2 ⟨?_, ?_⟩
  · intro ticks _
    refine List.Pairwise.imp_of_mem ?_ (ordered.filter _)
    intro early late isEarly isLate before
    have spentEarly := of_decide_eq_true (List.mem_filter.1 isEarly).2
    have spentLate := of_decide_eq_true (List.mem_filter.1 isLate).2
    exact .inr ⟨spentEarly.trans spentLate.symm, before⟩
  · refine List.pairwise_lt_range.imp ?_
    intro first second before early isEarly late isLate
    have spentEarly := of_decide_eq_true (List.mem_filter.1 isEarly).2
    have spentLate := of_decide_eq_true (List.mem_filter.1 isLate).2
    left
    rw [spentEarly, spentLate]
    exact before

/-! ## Jobs at the start -/

theorem mem_startFrom {index : Nat} {jobs : List (Job ε α)} {running : Running ε α} :
    running ∈ startFrom index jobs ↔
      ∃ place, running.index = index + place ∧
        jobs[place]? = some ⟨running.ticks, running.outcome⟩ := by
  induction jobs generalizing index with
  | nil => simp [startFrom]
  | cons job rest ih =>
      simp only [startFrom, List.mem_cons, ih]
      constructor
      · rintro (rfl | ⟨place, at_, found⟩)
        · exact ⟨0, rfl, rfl⟩
        · exact ⟨place + 1, by omega, found⟩
      · rintro ⟨place, at_, found⟩
        cases place with
        | zero =>
            left
            obtain ⟨_, _, _⟩ := running
            simp only [List.getElem?_cons_zero, Option.some.injEq] at found
            simp_all
        | succ place => exact .inr ⟨place, by omega, found⟩

theorem pairwise_startFrom (index : Nat) (jobs : List (Job ε α)) :
    (startFrom index jobs).Pairwise (·.index < ·.index) := by
  induction jobs generalizing index with
  | nil => exact .nil
  | cons job rest ih =>
      refine .cons ?_ (ih (index + 1))
      intro later member
      obtain ⟨place, at_, _⟩ := mem_startFrom.1 member
      change index < later.index
      omega

theorem ticks_lt_roundsOf {jobs : List (Job ε α)} {job : Job ε α} (member : job ∈ jobs) :
    job.ticks < roundsOf jobs := by
  induction jobs with
  | nil => cases member
  | cons first rest ih =>
      change job.ticks < max (first.ticks + 1) (roundsOf rest)
      cases member with
      | head => omega
      | tail _ later => have := ih later; omega

/-- What ends in a number of rounds are the jobs with fewer ticks. -/
theorem mem_byRound_startFrom {count : Nat} {jobs : List (Job ε α)} {running : Running ε α} :
    running ∈ byRound count (startFrom 0 jobs) ↔
      jobs[running.index]? = some ⟨running.ticks, running.outcome⟩ ∧ running.ticks < count := by
  simp only [mem_byRound, mem_startFrom, Nat.zero_add]
  constructor
  · rintro ⟨⟨place, rfl, found⟩, inTime⟩
    exact ⟨found, inTime⟩
  · rintro ⟨found, inTime⟩
    exact ⟨⟨running.index, rfl, found⟩, inTime⟩

theorem pairwise_byRound_startFrom (jobs : List (Job ε α)) (count : Nat) :
    (byRound count (startFrom 0 jobs)).Pairwise fun early late =>
      EndsBefore jobs early.index late.index := by
  refine List.Pairwise.imp_of_mem ?_ (pairwise_byRound count (pairwise_startFrom 0 jobs))
  intro early late isEarly isLate before
  exact ⟨_, _, (mem_byRound_startFrom.1 isEarly).1, (mem_byRound_startFrom.1 isLate).1, before⟩

/-! ## All jobs end, in order -/

theorem mem_inOrder {jobs : List (Job ε α)} {running : Running ε α} :
    running ∈ inOrder jobs ↔
      jobs[running.index]? = some ⟨running.ticks, running.outcome⟩ := by
  rw [inOrder, mem_byRound_startFrom, and_iff_left_iff_imp]
  intro found
  exact ticks_lt_roundsOf (List.mem_of_getElem? found)

theorem pairwise_inOrder (jobs : List (Job ε α)) :
    (inOrder jobs).Pairwise fun early late => EndsBefore jobs early.index late.index :=
  pairwise_byRound_startFrom jobs _

/-! ## Gathering -/

theorem Ending.failure?_eq_some {ending : Ending ε α} {failure : ε} :
    ending.failure? = some failure ↔ ending.outcome = .error failure := by
  unfold failure?
  cases ending.outcome <;> simp

theorem Ending.failure?_eq_none {ending : Ending ε α} :
    ending.failure? = none ↔ ending.outcome.isOk = true := by
  unfold failure?
  cases ending.outcome <;> simp [Except.isOk, Except.toBool]

theorem outcomes_of_isOk {jobs : List (Job ε α)}
    (succeed : ∀ job ∈ jobs, job.outcome.isOk = true) :
    jobs.map (·.outcome) = (jobs.filterMap (·.outcome.toOption)).map .ok := by
  induction jobs with
  | nil => rfl
  | cons job rest ih =>
      rw [List.forall_mem_cons] at succeed
      obtain ⟨ticks, _ | value⟩ := job
      · cases succeed.1
      · exact congrArg (Except.ok value :: ·) (ih succeed.2)

/-- Jobs without failure are gathered in the order of the list. -/
theorem gather_of_isOk {jobs : List (Job ε α)}
    (succeed : ∀ job ∈ jobs, job.outcome.isOk = true) :
    gather jobs = .ok (jobs.filterMap (·.outcome.toOption)) := by
  have none : firstFailure? (endings jobs) = none := by
    rw [firstFailure?, endings, List.findSome?_eq_none_iff]
    simp only [List.forall_mem_map]
    intro running member
    exact Ending.failure?_eq_none.2 (succeed _ (List.mem_of_getElem? (mem_inOrder.1 member)))
  rw [gather, none]

/-- Of several failures, the one that is gathered belongs to the job that ends
before all others that fail. -/
theorem gather_of_failure {jobs : List (Job ε α)}
    (fails : ∃ job ∈ jobs, job.outcome.isOk = false) :
    ∃ place job failure, jobs[place]? = some job ∧ job.outcome = .error failure ∧
      gather jobs = .error failure ∧
      ∀ other rival, jobs[other]? = some rival → rival.outcome.isOk = false →
        other = place ∨ EndsBefore jobs place other := by
  have some : ∃ failure, firstFailure? (endings jobs) = some failure := by
    refine Option.ne_none_iff_exists'.1 ?_
    rw [firstFailure?, endings, Ne, List.findSome?_eq_none_iff]
    intro every
    obtain ⟨job, member, isFailure⟩ := fails
    obtain ⟨place, found⟩ := List.mem_iff_getElem?.1 member
    have ends : (⟨place, job.ticks, job.outcome⟩ : Running ε α) ∈ inOrder jobs :=
      mem_inOrder.2 found
    have succeeds := Ending.failure?_eq_none.1 (every _ (List.mem_map_of_mem ends))
    rw [Running.ending, isFailure] at succeeds
    cases succeeds
  obtain ⟨failure, first⟩ := some
  have gathered : gather jobs = .error failure := by rw [gather, first]
  rw [firstFailure?, endings, List.findSome?_map, List.findSome?_eq_some_iff] at first
  -- only successes stand before the first failure in order
  obtain ⟨before, running, after, split, isFirst, none⟩ := first
  have member : running ∈ inOrder jobs := by simp [split]
  refine ⟨running.index, _, failure, mem_inOrder.1 member, Ending.failure?_eq_some.1 isFirst,
    gathered, ?_⟩
  intro other rival found isFailure
  have ordered := pairwise_inOrder jobs
  rw [split, List.pairwise_append, List.pairwise_cons] at ordered
  have rivalMember : (⟨other, rival.ticks, rival.outcome⟩ : Running ε α) ∈ inOrder jobs :=
    mem_inOrder.2 found
  rw [split, List.mem_append, List.mem_cons] at rivalMember
  obtain isBefore | same | isAfter := rivalMember
  · have succeeds := Ending.failure?_eq_none.1 (none _ isBefore)
    rw [Running.ending, isFailure] at succeeds
    cases succeeds
  · exact .inl (congrArg Running.index same)
  · exact .inr (ordered.2.1.1 _ isAfter)

theorem succeed_or_fail (jobs : List (Job ε α)) :
    (∀ job ∈ jobs, job.outcome.isOk = true) ∨ ∃ job ∈ jobs, job.outcome.isOk = false := by
  cases all : jobs.all (·.outcome.isOk) with
  | true => exact .inl (List.all_eq_true.1 all)
  | false => exact .inr (by simpa using all)

theorem isOk_gather {jobs : List (Job ε α)} :
    (gather jobs).isOk = true ↔ ∀ job ∈ jobs, job.outcome.isOk = true := by
  rcases succeed_or_fail jobs with succeed | ⟨job, member, fails⟩
  · rw [gather_of_isOk succeed]
    exact iff_of_true rfl succeed
  · obtain ⟨_, _, failure, _, _, gathered, _⟩ := gather_of_failure ⟨job, member, fails⟩
    rw [gathered]
    refine iff_of_false Bool.false_ne_true fun succeed => ?_
    cases fails.symm.trans (succeed job member)

/-- Values are gathered just if all jobs come to them. -/
theorem gather_eq_ok {jobs : List (Job ε α)} {values : List α} :
    gather jobs = .ok values ↔ jobs.map (·.outcome) = values.map .ok := by
  rcases succeed_or_fail jobs with succeed | ⟨job, member, fails⟩
  · rw [gather_of_isOk succeed, outcomes_of_isOk succeed, Except.ok.injEq]
    exact (List.map_inj_right fun _ _ => Except.ok.inj).symm
  · obtain ⟨_, _, failure, _, _, gathered, _⟩ := gather_of_failure ⟨job, member, fails⟩
    rw [gathered]
    refine iff_of_false nofun fun outcomes => ?_
    have isValue : job.outcome ∈ values.map Except.ok := outcomes ▸ List.mem_map_of_mem member
    obtain ⟨value, _, same⟩ := List.mem_map.1 isValue
    rw [← same] at fails
    cases fails

/-- Of jobs that end in their first turns, the first one of the list that fails is the one whose
failure is gathered. -/
theorem gather_eq_error_of_atOnce {jobs : List (Job ε α)} (atOnce : ∀ job ∈ jobs, job.ticks = 0)
    {failure : ε} :
    gather jobs = .error failure ↔
      ∃ before job after, jobs = before ++ job :: after ∧
        (∀ earlier ∈ before, earlier.outcome.isOk = true) ∧ job.outcome = .error failure := by
  -- Without ticks only the places decide which job ends first.
  have ends {first second : Nat} (before : EndsBefore jobs first second) : first < second := by
    obtain ⟨early, late, isEarly, isLate, order⟩ := before
    have noTicks := atOnce early (List.mem_of_getElem? isEarly)
    have noTicksEither := atOnce late (List.mem_of_getElem? isLate)
    omega
  constructor
  · intro gathered
    have fails : ∃ job ∈ jobs, job.outcome.isOk = false :=
      (succeed_or_fail jobs).resolve_left fun succeed => by
        cases (gather_of_isOk succeed).symm.trans gathered
    obtain ⟨place, job, other, found, isFailure, raised, least⟩ := gather_of_failure fails
    cases gathered.symm.trans raised
    obtain ⟨inside, rfl⟩ := List.getElem?_eq_some_iff.1 found
    refine ⟨jobs.take place, jobs[place], jobs.drop (place + 1), ?_, ?_, isFailure⟩
    · rw [List.getElem_cons_drop, List.take_append_drop]
    · intro earlier member
      obtain ⟨position, early, rfl⟩ := List.mem_take_iff_getElem.1 member
      have before : position < place := by omega
      cases succeeds : jobs[position].outcome.isOk with
      | true => rfl
      | false =>
          rcases least position _ (List.getElem?_eq_getElem (by omega)) succeeds with same | later
          · omega
          · have := ends later
            omega
  · rintro ⟨before, job, after, rfl, succeed, isFailure⟩
    have here : (before ++ job :: after)[before.length]? = some job := by simp
    have failing : job.outcome.isOk = false := by rw [isFailure]; rfl
    obtain ⟨place, first, other, found, isFirst, raised, least⟩ :=
      gather_of_failure ⟨job, List.mem_of_getElem? here, failing⟩
    rcases least before.length job here failing with rfl | later
    · cases here.symm.trans found
      cases isFirst.symm.trans isFailure
      exact raised
    · have within := ends later
      rw [List.getElem?_append_left within] at found
      have succeeds := succeed first (List.mem_of_getElem? found)
      rw [isFirst] at succeeds
      cases succeeds

end StyleSieve.Usage
