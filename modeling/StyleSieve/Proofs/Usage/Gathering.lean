import Mathlib.Data.List.Basic
import StyleSieve.Proofs.Usage.Ordering

/-!
# Waiting for all tasks

Whoever gathers tasks waits twice.  The first wait is over when a task fails or when all have
ended.  After a failure a second wait lasts until nothing runs any more, and only then is the
failure raised.  The two waits, turn by turn, come to what the jobs of the tasks are gathered to,
and the tasks leave the state that they come to one after another.
-/

namespace StyleSieve.Usage

variable {σ ε α : Type}

namespace Stage

/-- A job after a number of turns. -/
def after (turns : Nat) (job : Job ε α) : Stage ε α :=
  if job.ticks < turns then .ended job.outcome else .running ⟨job.ticks - turns, job.outcome⟩

theorem hasEnded_of_ending? {stage : Stage ε α} {outcome : Except ε α}
    (ends : stage.ending? = some outcome) :
    stage.hasEnded = false ∧ stage.turn = .ended outcome := by
  match stage, ends with
  | .running ⟨0, _⟩, rfl => exact ⟨rfl, rfl⟩

/-- A turn in which a job does not end changes nothing that a wait could see. -/
theorem turn_of_goesOn {stage : Stage ε α} (goesOn : stage.ending? = none) :
    stage.turn.hasEnded = stage.hasEnded ∧ stage.turn.value? = stage.value? := by
  match stage, goesOn with
  | .running ⟨_ + 1, _⟩, _ => exact ⟨rfl, rfl⟩
  | .ended _, _ => exact ⟨rfl, rfl⟩

/-- After a number of turns a job has ended, or has the rest of its ticks left. -/
theorem after_cases (turns : Nat) (job : Job ε α) :
    (job.ticks < turns ∧ after turns job = .ended job.outcome) ∨
      ∃ left, job.ticks = turns + left ∧ after turns job = .running ⟨left, job.outcome⟩ := by
  by_cases ended : job.ticks < turns
  · exact .inl ⟨ended, if_pos ended⟩
  · obtain ⟨left, ticks⟩ := Nat.exists_eq_add_of_le (Nat.le_of_not_lt ended)
    refine .inr ⟨left, ticks, ?_⟩
    rw [after, if_neg ended, ticks, Nat.add_sub_cancel_left]

theorem turn_after (turns : Nat) (job : Job ε α) :
    (after turns job).turn = after (turns + 1) job := by
  obtain ⟨ended, isEnded⟩ | ⟨left, ticks, runs⟩ := after_cases turns job
  · rw [isEnded, after, if_pos (Nat.lt_succ_of_lt ended)]
    rfl
  · obtain ⟨endedNext, isEnded⟩ | ⟨leftNext, ticksNext, runsNext⟩ := after_cases (turns + 1) job
    · obtain rfl : left = 0 := by omega
      rw [runs, isEnded]
      rfl
    · obtain rfl : left = leftNext + 1 := by omega
      rw [runs, runsNext]
      rfl

theorem ending?_after (turns : Nat) (job : Job ε α) :
    (after turns job).ending? = if job.ticks = turns then some job.outcome else none := by
  obtain ⟨ended, isEnded⟩ | ⟨left, ticks, runs⟩ := after_cases turns job
  · rw [isEnded, if_neg (Nat.ne_of_lt ended)]
    rfl
  · rw [runs]
    cases left with
    | zero =>
        rw [Nat.add_zero] at ticks
        rw [if_pos ticks]
        rfl
    | succ more =>
        rw [if_neg (by omega)]
        rfl

theorem hasEnded_after (turns : Nat) (job : Job ε α) :
    (after turns job).hasEnded = true ↔ job.ticks < turns := by
  obtain ⟨ended, isEnded⟩ | ⟨left, ticks, runs⟩ := after_cases turns job
  · rw [isEnded]
    exact iff_of_true rfl ended
  · rw [runs]
    exact iff_of_false Bool.false_ne_true (by omega)

theorem value?_after {turns : Nat} {job : Job ε α} (ended : job.ticks < turns) :
    (after turns job).value? = job.outcome.toOption := by
  rw [after, if_pos ended, value?]

theorem turnsLeft_after_one (job : Job ε α) : (after 1 job).turnsLeft = job.ticks := by
  obtain ⟨ended, isEnded⟩ | ⟨left, ticks, runs⟩ := after_cases 1 job
  · rw [isEnded]
    exact (Nat.lt_one_iff.1 ended).symm
  · rw [runs, ticks, Nat.add_comm 1]
    rfl

end Stage

/-! ## Tasks that begin -/

/-- The jobs that tasks leave if they begin one after another, and the state then. -/
def beginTasks : List (Task σ ε α) → σ → List (Job ε α) × σ
  | [], state => ([], state)
  | task :: rest, state =>
      let first := task state
      let others := beginTasks rest first.2
      (first.1 :: others.1, others.2)

/-- Jobs that share nothing are the ones that they leave. -/
theorem beginTasks_ofJobs (jobs : List (Job ε α)) :
    beginTasks (jobs.map (·, ·)) () = (jobs, ()) := by
  induction jobs with
  | nil => rfl
  | cons job rest ih => simp only [List.map_cons, beginTasks, ih]

namespace Member

theorem hasEnded_begin (member : Member σ ε α) (state : σ) :
    (member.begin state).1.hasEnded = member.hasEnded := by
  cases member <;> rfl

theorem value?_begin (member : Member σ ε α) (state : σ) :
    (member.begin state).1.value? = member.value? := by
  cases member <;> rfl

/-- The stages that members start their turns from, one after another, and the state then. -/
def beginAll : List (Member σ ε α) → σ → List (Stage ε α) × σ
  | [], state => ([], state)
  | member :: rest, state =>
      let first := member.begin state
      let others := beginAll rest first.2
      (first.1 :: others.1, others.2)

theorem beginAll_append (first second : List (Member σ ε α)) (state : σ) :
    beginAll (first ++ second) state =
      ((beginAll first state).1 ++ (beginAll second (beginAll first state).2).1,
        (beginAll second (beginAll first state).2).2) := by
  induction first generalizing state with
  | nil => rfl
  | cons member rest ih => simp only [List.cons_append, beginAll, ih]

theorem length_beginAll (members : List (Member σ ε α)) (state : σ) :
    (beginAll members state).1.length = members.length := by
  induction members generalizing state with
  | nil => rfl
  | cons member rest ih => rw [beginAll, List.length_cons, ih, List.length_cons]

theorem beginAll_fresh (tasks : List (Task σ ε α)) (state : σ) :
    beginAll (tasks.map .fresh) state =
      ((beginTasks tasks state).1.map (Stage.after 0), (beginTasks tasks state).2) := by
  induction tasks generalizing state with
  | nil => rfl
  | cons task rest ih =>
      simp only [List.map_cons, beginAll, begin, beginTasks, ih]
      rfl

theorem beginAll_begun (stages : List (Stage ε α)) (state : σ) :
    beginAll (stages.map (Member.begun (σ := σ))) state = (stages, state) := by
  induction stages with
  | nil => rfl
  | cons stage rest ih => simp only [List.map_cons, beginAll, begin, ih]

end Member

/-! ## The two waits -/

namespace Wait

/-- The wait that the ends of some jobs lead to as long as others run. -/
def upon (ends : List (Ending ε α)) : Wait ε α :=
  match firstFailure? ends with
  | some failure => .second failure
  | none => .first

theorem hear_upon (ends : List (Ending ε α)) (ending : Ending ε α) :
    (upon ends).hear ending.outcome = upon (ends ++ [ending]) := by
  obtain ⟨place, outcome⟩ := ending
  unfold upon
  rw [firstFailure?, firstFailure?, List.findSome?_append]
  cases found : ends.findSome? Ending.failure? with
  | some failure => rfl
  | none => cases outcome <;> rfl

/-- A wait is over when all members have ended, not before, and brings the first failure, or
else the values in the order of the list. -/
theorem gathered?_look (members : List (Member σ ε α)) (ends : List (Ending ε α)) :
    ((upon ends).look members).gathered? =
      if members.all Member.hasEnded then
        some (match firstFailure? ends with
          | some failure => .error failure
          | none => .ok (members.filterMap Member.value?))
      else none := by
  unfold upon
  cases firstFailure? ends with
  | some failure =>
      simp only [look]
      split <;> rfl
  | none =>
      simp only [look]
      split <;> rfl

theorem look_of_running {members : List (Member σ ε α)}
    (running : members.all Member.hasEnded = false) (wait : Wait ε α) :
    wait.look members = wait := by
  cases wait <;> simp [look, running]

end Wait

/-! ## Turns -/

namespace Gathering

/-- The wait is the one that the ends so far lead to. -/
def Waits (gathering : Gathering σ ε α) : Prop :=
  gathering.wait = (Wait.upon gathering.ends).look gathering.members

theorem waits_start (tasks : List (Task σ ε α)) (state : σ) : (start tasks state).Waits := rfl

theorem turn_of_goesOn {gathering : Gathering σ ε α} {place : Nat} {member : Member σ ε α}
    (found : gathering.members[place]? = some member)
    (goesOn : (member.begin gathering.state).1.ending? = none) :
    gathering.turn place =
      { gathering with
        members := gathering.members.set place (.begun (member.begin gathering.state).1.turn)
        state := (member.begin gathering.state).2 } := by
  rw [turn, found]
  dsimp only
  rw [goesOn]

theorem turn_of_ending {gathering : Gathering σ ε α} {place : Nat} {member : Member σ ε α}
    (found : gathering.members[place]? = some member) {outcome : Except ε α}
    (ends : (member.begin gathering.state).1.ending? = some outcome) :
    gathering.turn place =
      ⟨gathering.members.set place (.begun (member.begin gathering.state).1.turn),
        (member.begin gathering.state).2,
        (gathering.wait.hear outcome).look
          (gathering.members.set place (.begun (member.begin gathering.state).1.turn)),
        gathering.ends ++ [⟨place, outcome⟩]⟩ := by
  rw [turn, found]
  dsimp only
  rw [ends]

/-- What the turn of a member changes, but for the wait. -/
theorem turn_eq {gathering : Gathering σ ε α} {place : Nat} {member : Member σ ε α}
    (found : gathering.members[place]? = some member) :
    let begun := member.begin gathering.state
    (gathering.turn place).members = gathering.members.set place (.begun begun.1.turn) ∧
      (gathering.turn place).state = begun.2 ∧
      (gathering.turn place).ends =
        gathering.ends ++ (begun.1.ending?.map (Ending.mk place)).toList := by
  intro begun
  cases ends? : begun.1.ending? with
  | none =>
      rw [turn_of_goesOn found ends?]
      exact ⟨rfl, rfl, (List.append_nil _).symm⟩
  | some outcome =>
      rw [turn_of_ending found ends?]
      exact ⟨rfl, rfl, rfl⟩

/-- A value that has changed in nothing that is asked about it. -/
theorem map_set_of_same {β γ : Type} (f : β → γ) (new : β) {list : List β} {place : Nat} {old : β}
    (found : list[place]? = some old) (same : f new = f old) :
    (list.set place new).map f = list.map f := by
  obtain ⟨inside, rfl⟩ := List.getElem?_eq_some_iff.1 found
  have inside' : place < (list.map f).length := by rwa [List.length_map]
  have here : f list[place] = (list.map f)[place] := (List.getElem_map f).symm
  rw [List.map_set, same, here, List.set_getElem_self]

theorem Waits.turn {gathering : Gathering σ ε α} (waits : gathering.Waits) (place : Nat) :
    (gathering.turn place).Waits := by
  obtain ⟨members, state, wait, ends⟩ := gathering
  obtain rfl : wait = (Wait.upon ends).look members := waits
  cases found : members[place]? with
  | none =>
      rw [Gathering.turn]
      dsimp only
      rw [found]
      rfl
  | some member =>
      cases ends? : (member.begin state).1.ending? with
      | none =>
          -- The wait has nothing new to see.
          obtain ⟨sameEnd, sameValue⟩ := Stage.turn_of_goesOn ends?
          rw [Member.hasEnded_begin] at sameEnd
          rw [Member.value?_begin] at sameValue
          have sameAll : (members.set place (.begun (member.begin state).1.turn)).all
              Member.hasEnded = members.all Member.hasEnded := by
            have mapped := congrArg (List.all · id)
              (map_set_of_same Member.hasEnded (.begun (member.begin state).1.turn)
                found sameEnd)
            rwa [List.all_map, List.all_map, Function.id_comp] at mapped
          have sameValues : (members.set place (.begun (member.begin state).1.turn)).filterMap
              Member.value? = members.filterMap Member.value? := by
            have mapped := congrArg (List.filterMap id)
              (map_set_of_same Member.value? (.begun (member.begin state).1.turn)
                found sameValue)
            rwa [List.filterMap_map, List.filterMap_map, Function.id_comp] at mapped
          rw [turn_of_goesOn found ends?]
          change (Wait.upon ends).look members =
            (Wait.upon ends).look (members.set place (.begun (member.begin state).1.turn))
          cases Wait.upon ends <;> simp only [Wait.look, sameAll, sameValues]
      | some outcome =>
          -- A member that ends was running, so no wait was over.
          have wasRunning : members.all Member.hasEnded = false := by
            rw [List.all_eq_false]
            refine ⟨member, List.mem_of_getElem? found, ?_⟩
            rw [← Member.hasEnded_begin member state]
            simp [(Stage.hasEnded_of_ending? ends?).1]
          rw [turn_of_ending found ends?, Waits]
          dsimp only
          rw [Wait.look_of_running wasRunning, ← Wait.hear_upon]

theorem Waits.turns {gathering : Gathering σ ε α} (waits : gathering.Waits) (places : List Nat) :
    (gathering.turns places).Waits := by
  induction places generalizing gathering with
  | nil => exact waits
  | cons place rest ih => exact ih (waits.turn place)

theorem Waits.rounds {gathering : Gathering σ ε α} (waits : gathering.Waits) (count : Nat) :
    (gathering.rounds count).Waits := by
  induction count with
  | zero => exact waits
  | succ count ih => exact ih.turns _

theorem Waits.gathered?_eq {gathering : Gathering σ ε α} (waits : gathering.Waits) :
    gathering.gathered? =
      if gathering.members.all Member.hasEnded then
        some (match firstFailure? gathering.ends with
          | some failure => .error failure
          | none => .ok (gathering.members.filterMap Member.value?))
      else none := by
  rw [gathered?, waits, Wait.gathered?_look]

theorem gathered?_isSome {gathering : Gathering σ ε α} (waits : gathering.Waits) :
    gathering.gathered?.isSome = true ↔
      ∀ member ∈ gathering.members, member.hasEnded = true := by
  rw [waits.gathered?_eq, ← List.all_eq_true]
  split
  · simp_all
  · simp_all

/-- The ends of turns that members have one after another, by the stages that the turns start
from. -/
def endsOf (stages : List (Stage ε α)) : List (Ending ε α) :=
  (List.range stages.length).filterMap fun place =>
    (stages[place]?.bind Stage.ending?).map (⟨place, ·⟩)

theorem endsOf_concat (stages : List (Stage ε α)) (stage : Stage ε α) :
    endsOf (stages ++ [stage]) =
      endsOf stages ++ (stage.ending?.map (Ending.mk stages.length)).toList := by
  rw [endsOf, List.length_append, List.length_singleton, List.range_succ, List.filterMap_append,
    endsOf]
  congr 1
  · refine List.filterMap_congr fun place inside => ?_
    rw [List.getElem?_append_left (List.mem_range.1 inside)]
  · simp [List.filterMap_cons]
    cases stage.ending? <;> rfl

/-- After turns of the first members of the list, these have advanced and no others. -/
theorem turns_range (gathering : Gathering σ ε α) {count : Nat}
    (inside : count ≤ gathering.members.length) :
    let begun := Member.beginAll (gathering.members.take count) gathering.state
    (gathering.turns (List.range count)).members =
        begun.1.map (fun stage => .begun stage.turn) ++ gathering.members.drop count ∧
      (gathering.turns (List.range count)).state = begun.2 ∧
      (gathering.turns (List.range count)).ends = gathering.ends ++ endsOf begun.1 := by
  induction count with
  | zero => simp [turns, Member.beginAll, endsOf]
  | succ count ih =>
      obtain ⟨members, state, ends⟩ := ih (by omega)
      have step : gathering.turns (List.range (count + 1)) =
          (gathering.turns (List.range count)).turn count := by
        rw [turns, List.range_succ, List.foldl_append]
        rfl
      -- the turns so far have left the member at this place as it was
      have within : count < gathering.members.length := inside
      have length : (Member.beginAll (gathering.members.take count)
          gathering.state).1.length = count := by
        rw [Member.length_beginAll, List.length_take]
        omega
      have here : (gathering.turns (List.range count)).members[count]? =
          some gathering.members[count] := by
        rw [members, List.getElem?_append_right (by simp [length]), List.length_map, length,
          Nat.sub_self, List.getElem?_drop, Nat.add_zero, List.getElem?_eq_getElem within]
      have begun : Member.beginAll (gathering.members.take (count + 1)) gathering.state =
          ((Member.beginAll (gathering.members.take count) gathering.state).1 ++
              [(gathering.members[count].begin (gathering.turns (List.range count)).state).1],
            (gathering.members[count].begin (gathering.turns (List.range count)).state).2) := by
        rw [List.take_succ_eq_append_getElem within, Member.beginAll_append, ← state]
        rfl
      have replaced (stage : Stage ε α) :
          (gathering.turns (List.range count)).members.set count (.begun stage.turn) =
            ((Member.beginAll (gathering.members.take count) gathering.state).1 ++
                [stage]).map (fun stage => .begun stage.turn) ++
              gathering.members.drop (count + 1) := by
        rw [members, List.set_append_right _ _ (by simp [length]), List.length_map, length,
          Nat.sub_self, List.drop_eq_getElem_cons within, List.set_cons_zero, List.map_append,
          List.append_assoc]
        rfl
      rw [step, begun]
      dsimp only
      rw [endsOf_concat, length, ← List.append_assoc, ← ends, ← replaced]
      exact turn_eq here

/-! ## Rounds -/

theorem startFrom_eq (index : Nat) (jobs : List (Job ε α)) :
    startFrom index jobs = (List.range jobs.length).filterMap fun place =>
      jobs[place]?.map fun job => ⟨index + place, job.ticks, job.outcome⟩ := by
  induction jobs generalizing index with
  | nil => rfl
  | cons job rest ih =>
      rw [startFrom, ih, List.length_cons, List.range_succ_eq_map, List.filterMap_cons,
        List.filterMap_map]
      simp only [Function.comp_def, List.getElem?_cons_succ, Nat.add_assoc, Nat.add_comm 1,
        Nat.succ_eq_add_one, Nat.add_zero, List.getElem?_cons_zero, Option.map_some]

/-- The ends of a round are those of the jobs whose ticks are spent in it. -/
theorem endsOf_after (jobs : List (Job ε α)) (count : Nat) :
    endsOf (jobs.map (Stage.after count)) =
      ((startFrom 0 jobs).filter (·.ticks = count)).map Running.ending := by
  rw [endsOf, List.length_map, startFrom_eq, List.filter_filterMap, List.map_filterMap]
  refine congrArg (List.filterMap · _) (funext fun place => ?_)
  rw [List.getElem?_map]
  cases jobs[place]? with
  | none => rfl
  | some job =>
      by_cases spent : job.ticks = count
      · simp [Stage.ending?_after, spent, Running.ending, Option.filter]
      · simp [Stage.ending?_after, spent, Option.filter]

theorem byRound_succ (count : Nat) (running : List (Running ε α)) :
    byRound (count + 1) running = byRound count running ++ running.filter (·.ticks = count) := by
  simp [byRound, List.range_succ]

/-- A round of members that start their turns from jobs after some turns. -/
theorem round_of_beginAll (gathering : Gathering σ ε α) {jobs : List (Job ε α)} {count : Nat}
    {later : σ} (begun : Member.beginAll gathering.members gathering.state =
      (jobs.map (Stage.after count), later)) :
    let next := gathering.turns (List.range gathering.members.length)
    next.members = jobs.map (fun job => .begun (Stage.after (count + 1) job)) ∧
      next.state = later ∧
      next.ends = gathering.ends ++
        ((startFrom 0 jobs).filter (·.ticks = count)).map Running.ending := by
  obtain ⟨members, state, ends⟩ := gathering.turns_range (Nat.le_refl _)
  rw [List.take_length, begun] at members state ends
  refine ⟨?_, state, ?_⟩
  · rw [members, List.drop_length, List.append_nil, List.map_map]
    exact List.map_congr_left fun job _ => congrArg Member.begun (Stage.turn_after count job)
  · rw [ends, endsOf_after]

section

variable (tasks : List (Task σ ε α)) (state : σ)

/-- After the first round every task has begun, in the order of the list, and after a number of
rounds every job has had as many turns; the ends are those that come in as many rounds. -/
theorem rounds_start (count : Nat) :
    let begun := beginTasks tasks state
    let gathering := (start tasks state).rounds (count + 1)
    gathering.members = begun.1.map (fun job => .begun (Stage.after (count + 1) job)) ∧
      gathering.state = begun.2 ∧
      gathering.ends = (byRound (count + 1) (startFrom 0 begun.1)).map Running.ending := by
  induction count with
  | zero =>
      have first := round_of_beginAll (start tasks state)
        (Member.beginAll_fresh tasks state)
      refine ⟨first.1, first.2.1, first.2.2.trans ?_⟩
      simp [start, byRound]
  | succ count ih =>
      obtain ⟨members, isState, ends⟩ := ih
      have begun : Member.beginAll ((start tasks state).rounds (count + 1)).members
          ((start tasks state).rounds (count + 1)).state =
            ((beginTasks tasks state).1.map (Stage.after (count + 1)),
              (beginTasks tasks state).2) := by
        rw [members, isState, ← Member.beginAll_begun, List.map_map]
        rfl
      have next := round_of_beginAll _ begun
      refine ⟨next.1, next.2.1, next.2.2.trans ?_⟩
      rw [ends, byRound_succ (count + 1), List.map_append]

theorem ends_rounds (count : Nat) :
    ((start tasks state).rounds count).ends =
      (byRound count (startFrom 0 (beginTasks tasks state).1)).map Running.ending := by
  cases count with
  | zero => rfl
  | succ count => exact (rounds_start tasks state count).2.2

theorem length_beginTasks : (beginTasks tasks state).1.length = tasks.length := by
  induction tasks generalizing state with
  | nil => rfl
  | cons task rest ih => rw [beginTasks, List.length_cons, ih, List.length_cons]

theorem all_hasEnded_rounds (count : Nat) :
    ((start tasks state).rounds count).members.all Member.hasEnded = true ↔
      ∀ job ∈ (beginTasks tasks state).1, job.ticks < count := by
  cases count with
  | zero =>
      have same := length_beginTasks tasks state
      cases tasks with
      | nil => exact iff_of_true rfl (by simp [beginTasks])
      | cons task rest =>
          refine iff_of_false Bool.false_ne_true fun none => ?_
          exact absurd (none _ List.mem_cons_self) (Nat.not_lt_zero _)
  | succ count =>
      rw [(rounds_start tasks state count).1, List.all_map, List.all_eq_true]
      exact forall₂_congr fun job _ => Stage.hasEnded_after (count + 1) job

theorem values_rounds {count : Nat}
    (allEnd : ∀ job ∈ (beginTasks tasks state).1, job.ticks < count) :
    ((start tasks state).rounds count).members.filterMap Member.value? =
      (beginTasks tasks state).1.filterMap (·.outcome.toOption) := by
  cases count with
  | zero =>
      cases tasks with
      | nil => rfl
      | cons task rest => exact absurd (allEnd _ List.mem_cons_self) (Nat.not_lt_zero _)
  | succ count =>
      rw [(rounds_start tasks state count).1, List.filterMap_map]
      exact List.filterMap_congr fun job member => Stage.value?_after (allEnd job member)

end

/-! ## What is gathered -/

/-- Rounds after those in which all jobs end change nothing. -/
theorem byRound_of_le {running : List (Running ε α)} {enough count : Nat}
    (allEnd : ∀ job ∈ running, job.ticks < enough) (le : enough ≤ count) :
    byRound count running = byRound enough running := by
  induction le with
  | refl => rfl
  | step le ih =>
      rw [byRound_succ, ih, List.append_right_eq_self, List.filter_eq_nil_iff]
      intro job member spent
      have ended := Nat.lt_of_lt_of_le (allEnd job member) le
      exact Nat.ne_of_lt ended (of_decide_eq_true spent)

theorem roundsOf_le {jobs : List (Job ε α)} {count : Nat}
    (allEnd : ∀ job ∈ jobs, job.ticks < count) : roundsOf jobs ≤ count := by
  induction jobs with
  | nil => exact Nat.zero_le count
  | cons job rest ih =>
      rw [List.forall_mem_cons] at allEnd
      exact Nat.max_le.2 ⟨allEnd.1, ih allEnd.2⟩

/-- The waits are over after the round in which the last job ends, and bring what the jobs are
gathered to. -/
theorem gathered?_rounds (tasks : List (Task σ ε α)) (state : σ) (count : Nat) :
    ((start tasks state).rounds count).gathered? =
      if ∀ job ∈ (beginTasks tasks state).1, job.ticks < count then
        some (gather (beginTasks tasks state).1)
      else none := by
  rw [((waits_start tasks state).rounds count).gathered?_eq, ends_rounds]
  by_cases allEnd : ∀ job ∈ (beginTasks tasks state).1, job.ticks < count
  · have inTime : ∀ running ∈ startFrom 0 (beginTasks tasks state).1,
        running.ticks < roundsOf (beginTasks tasks state).1 := by
      intro running member
      obtain ⟨place, -, found⟩ := mem_startFrom.1 member
      exact ticks_lt_roundsOf (List.mem_of_getElem? found)
    rw [if_pos ((all_hasEnded_rounds tasks state count).2 allEnd), if_pos allEnd,
      values_rounds tasks state allEnd, byRound_of_le inTime (roundsOf_le allEnd)]
    rfl
  · rw [if_neg (mt (all_hasEnded_rounds tasks state count).1 allEnd), if_neg allEnd]

theorem mem_completed_rounds {tasks : List (Task σ ε α)} {state : σ} {count place : Nat} :
    place ∈ ((start tasks state).rounds count).completed ↔
      ∃ job, (beginTasks tasks state).1[place]? = some job ∧ job.ticks < count ∧
        job.outcome.isOk = true := by
  rw [completed, ends_rounds, List.filterMap_map]
  simp only [List.mem_filterMap, Function.comp_apply, Option.ite_none_right_eq_some,
    Option.some.injEq, mem_byRound_startFrom]
  constructor
  · rintro ⟨running, ⟨found, inTime⟩, succeeds, rfl⟩
    exact ⟨_, found, inTime, succeeds⟩
  · rintro ⟨job, found, inTime, succeeds⟩
    exact ⟨⟨place, job.ticks, job.outcome⟩, ⟨found, inTime⟩, succeeds, rfl⟩

theorem pairwise_completed_rounds (tasks : List (Task σ ε α)) (state : σ) (count : Nat) :
    ((start tasks state).rounds count).completed.Pairwise
      (EndsBefore (beginTasks tasks state).1) := by
  rw [completed, ends_rounds, List.filterMap_map]
  refine (pairwise_byRound_startFrom (beginTasks tasks state).1 count).filterMap _ ?_
  intro early late before first isFirst second isSecond
  simp only [Function.comp_apply, Option.ite_none_right_eq_some,
    Option.some.injEq] at isFirst isSecond
  rw [← isFirst.2, ← isSecond.2]
  exact before

theorem rounds_add (gathering : Gathering σ ε α) (first second : Nat) :
    (gathering.rounds first).rounds second = gathering.rounds (first + second) := by
  induction second with
  | zero => rfl
  | succ second ih =>
      rw [rounds, ih]
      rfl

theorem turnsLeft_le_roundsLeft {gathering : Gathering σ ε α} {member : Member σ ε α}
    (among : member ∈ gathering.members) : member.turnsLeft ≤ gathering.roundsLeft := by
  obtain ⟨members, _, _, _⟩ := gathering
  change member ∈ members at among
  change member.turnsLeft ≤ members.foldr (fun member rounds => max member.turnsLeft rounds) 0
  induction members with
  | nil => cases among
  | cons first rest ih =>
      rw [List.foldr_cons]
      cases among with
      | head => exact Nat.le_max_left _ _
      | tail _ later => exact Nat.le_trans (ih later) (Nat.le_max_right _ _)

/-- The rounds that gathering takes are as many as all jobs need. -/
theorem exists_finish (tasks : List (Task σ ε α)) (state : σ) :
    ∃ count, (start tasks state).finish = (start tasks state).rounds (count + 1) ∧
      ∀ job ∈ (beginTasks tasks state).1, job.ticks < count + 1 := by
  refine ⟨((start tasks state).rounds 1).roundsLeft, ?_, fun job among => ?_⟩
  · rw [finish, rounds_add, Nat.add_comm]
  · have begun : Member.begun (Stage.after 1 job) ∈ ((start tasks state).rounds 1).members := by
      rw [(rounds_start tasks state 0).1]
      exact List.mem_map_of_mem (f := fun job => Member.begun (Stage.after 1 job)) among
    have enough := turnsLeft_le_roundsLeft begun
    rw [Member.turnsLeft, Stage.turnsLeft_after_one] at enough
    exact Nat.lt_succ_of_le enough

end Gathering

/-- Tasks are gathered to what their jobs are, and leave the state that they come to when they
begin one after another. -/
theorem gatherTasks_eq (tasks : List (Task σ ε α)) (state : σ) :
    gatherTasks tasks state =
      (gather (beginTasks tasks state).1, (beginTasks tasks state).2) := by
  obtain ⟨count, isFinish, allEnd⟩ := Gathering.exists_finish tasks state
  have brings := Gathering.gathered?_rounds tasks state (count + 1)
  rw [if_pos allEnd, ← isFinish, Gathering.gathered?] at brings
  rw [gatherTasks]
  refine Prod.ext ?_ ?_
  · dsimp only
    cases isWait : (Gathering.start tasks state).finish.wait with
    | first => rw [isWait] at brings; cases brings
    | second failure => rw [isWait] at brings; cases brings
    | finished gathered =>
        rw [isWait] at brings
        exact Option.some.inj brings
  · dsimp only
    rw [isFinish]
    exact (Gathering.rounds_start tasks state count).2.1

namespace Gathering

/-- Gathering joins all jobs.  Whatever the order of the turns, the waits are over when all
jobs have ended, and not before.  If all jobs have a turn in every round, the waits bring
what is gathered: the values in the order of the list, or the failure of the failing job
that ends first.  After any number of rounds the jobs that have completed are the ones
without failure whose ticks are spent, each once and in the order of the ticks, those of one
round in the order of the list. -/
theorem gather_joins_all (jobs : List (Job ε α)) :
    (∀ places, ((ofJobs jobs).turns places).gathered?.isSome = true ↔
        ∀ member ∈ ((ofJobs jobs).turns places).members, member.hasEnded = true) ∧
      (∀ count, ((ofJobs jobs).rounds count).gathered? =
        if ∀ job ∈ jobs, job.ticks < count then some (gather jobs) else none) ∧
      ((∀ job ∈ jobs, job.outcome.isOk = true) →
        ∃ values, jobs.map (·.outcome) = values.map .ok ∧ gather jobs = .ok values) ∧
      ((∃ job ∈ jobs, job.outcome.isOk = false) →
        ∃ place failure, FailsFirst jobs place failure ∧ gather jobs = .error failure) ∧
      ∀ count, ((ofJobs jobs).rounds count).completed.Nodup ∧
        ((ofJobs jobs).rounds count).completed.Pairwise (EndsBefore jobs) ∧
        ∀ place, place ∈ ((ofJobs jobs).rounds count).completed ↔
          ∃ job, jobs[place]? = some job ∧ job.ticks < count ∧ job.outcome.isOk = true := by
  have jobs_eq : (beginTasks (jobs.map (·, ·)) ()).1 = jobs :=
    congrArg Prod.fst (beginTasks_ofJobs jobs)
  refine ⟨fun places => gathered?_isSome ((waits_start _ _).turns places), ?_, ?_, ?_, ?_⟩
  · intro count
    rw [ofJobs, gathered?_rounds, jobs_eq]
  · intro succeed
    refine ⟨_, ?_, gather_of_isOk succeed⟩
    exact outcomes_of_isOk succeed
  · intro fails
    obtain ⟨place, job, failure, found, isFailure, gathered, first⟩ := gather_of_failure fails
    exact ⟨place, failure, ⟨job, found, isFailure, first⟩, gathered⟩
  · intro count
    have ordered := pairwise_completed_rounds (jobs.map (·, ·)) () count
    rw [jobs_eq] at ordered
    refine ⟨ordered.imp EndsBefore.ne, ordered, fun place => ?_⟩
    rw [ofJobs, mem_completed_rounds, jobs_eq]

/-- Of two failures the one with fewer ticks is gathered, though it stands later, and only
after the slowest job has ended. -/
theorem gather_joins_all_mixed :
    let jobs : List (Job String Nat) :=
      [⟨2, .error "slow"⟩, ⟨3, .ok 7⟩, ⟨1, .error "quick"⟩, ⟨0, .ok 8⟩, ⟨3, .ok 9⟩]
    ((ofJobs jobs).rounds 3).gathered? = none ∧
      ((ofJobs jobs).rounds 4).gathered? = some (.error "quick") ∧
      FailsFirst jobs 2 "quick" ∧
      ((ofJobs jobs).rounds 4).completed = [3, 1, 4] := by
  intro jobs
  obtain ⟨-, gathered, -, fails, -⟩ := gather_joins_all jobs
  obtain ⟨place, failure, first, raised⟩ := fails ⟨_, List.mem_cons_self, rfl⟩
  have settled : gather jobs = .error "quick" := by rfl
  cases settled.symm.trans raised
  have here : place = 2 := by
    obtain ⟨⟨ticks, outcome⟩, found, isFailure, -⟩ := first
    change outcome = .error "quick" at isFailure
    subst isFailure
    rcases place with _ | _ | _ | _ | _ | later <;> simp [jobs] at found ⊢
  subst here
  have waiting : ¬∀ job ∈ jobs, job.ticks < 3 := by simp [jobs]
  have past : ∀ job ∈ jobs, job.ticks < 4 := by simp [jobs]
  refine ⟨(gathered 3).trans (if_neg waiting), ?_, first, by decide +kernel⟩
  rw [gathered 4, if_pos past, settled]

end Gathering

end StyleSieve.Usage
