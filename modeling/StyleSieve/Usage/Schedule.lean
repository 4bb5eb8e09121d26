/-!
# Tasks side by side

Tasks that share a state take turns.  In its first turn a task works on the
state, and leaves a job that waits for a number of turns before it ends with its
outcome.  Whoever gathers tasks waits twice.  The first wait is over when a task
fails or when all have ended.  After a failure a second wait lasts until nothing
runs any more, and only then is the failure raised.
-/

namespace StyleSieve.Usage

/-- A job that ends with its outcome after a number of ticks. -/
structure Job (ε α : Type) where
  ticks : Nat
  outcome : Except ε α

/-- What a task does to the shared state in its first turn, and the job that is
left then. -/
abbrev Task (σ ε α : Type) := σ → Job ε α × σ

variable {σ ε α : Type}

/-- The end of a job, with its place. -/
structure Ending (ε α : Type) where
  index : Nat
  outcome : Except ε α

/-! ## How far tasks have come -/

/-- How far a job has come. -/
inductive Stage (ε α : Type) where
  | running (job : Job ε α)
  | ended (outcome : Except ε α)

namespace Stage

def hasEnded : Stage ε α → Bool
  | .running _ => false
  | .ended _ => true

/-- The value of a job that has ended without failure. -/
def value? : Stage ε α → Option α
  | .ended outcome => outcome.toOption
  | .running _ => none

/-- A job after its turn: it has waited one tick, or ended if none was left. -/
def turn : Stage ε α → Stage ε α
  | .running ⟨0, outcome⟩ => .ended outcome
  | .running ⟨ticks + 1, outcome⟩ => .running ⟨ticks, outcome⟩
  | .ended outcome => .ended outcome

/-- The outcome of a job that ends in its turn. -/
def ending? : Stage ε α → Option (Except ε α)
  | .running ⟨0, outcome⟩ => some outcome
  | _ => none

/-- The turns that a job needs to end. -/
def turnsLeft : Stage ε α → Nat
  | .running job => job.ticks + 1
  | .ended _ => 0

end Stage

/-- A task among others: it has had no turn yet, or its job has come to a
stage. -/
inductive Member (σ ε α : Type) where
  | fresh (task : Task σ ε α)
  | begun (stage : Stage ε α)

namespace Member

def hasEnded : Member σ ε α → Bool
  | .fresh _ => false
  | .begun stage => stage.hasEnded

def value? : Member σ ε α → Option α
  | .fresh _ => none
  | .begun stage => stage.value?

def turnsLeft : Member σ ε α → Nat
  | .fresh _ => 1
  | .begun stage => stage.turnsLeft

/-- A member whose turn it is: the stage that its turn starts from, and the
state after what a task does in its first turn. -/
def begin : Member σ ε α → σ → Stage ε α × σ
  | .fresh task, state => (.running (task state).1, (task state).2)
  | .begun stage, state => (stage, state)

end Member

/-! ## The two waits -/

/-- What the one who gathers does: the first wait, the second wait, which
follows a failure, or nothing more. -/
inductive Wait (ε α : Type) where
  | first
  | second (failure : ε)
  | finished (gathered : Except ε (List α))

namespace Wait

/-- The wait after the end of a job. -/
def hear (outcome : Except ε α) : Wait ε α → Wait ε α
  | .first =>
      match outcome with
      | .error failure => .second failure
      | .ok _ => .first
  | wait => wait

/-- The wait when it has looked at all members: it is over if all have ended. -/
def look (members : List (Member σ ε α)) : Wait ε α → Wait ε α
  | .first =>
      if members.all Member.hasEnded then .finished (.ok (members.filterMap Member.value?))
      else .first
  | .second failure =>
      if members.all Member.hasEnded then .finished (.error failure) else .second failure
  | wait => wait

def gathered? : Wait ε α → Option (Except ε (List α))
  | .finished gathered => some gathered
  | _ => none

/-- What a wait brings.  One that is not over brings the failure that it has
heard of, or nothing. -/
def result : Wait ε α → Except ε (List α)
  | .first => .ok []
  | .second failure => .error failure
  | .finished gathered => gathered

end Wait

/-! ## Turns and rounds -/

/-- Tasks that are being gathered: how far each has come, the state that they
share, what the one who gathers does, and the ends so far, in their order. -/
structure Gathering (σ ε α : Type) where
  members : List (Member σ ε α)
  state : σ
  wait : Wait ε α
  ends : List (Ending ε α)

namespace Gathering

/-- Tasks before their first turns.  Without tasks there is nothing to wait
for. -/
def start (tasks : List (Task σ ε α)) (state : σ) : Gathering σ ε α :=
  ⟨tasks.map .fresh, state, Wait.first.look (σ := σ) (tasks.map .fresh), []⟩

/-- Jobs before their first turns, which share nothing. -/
def ofJobs (jobs : List (Job ε α)) : Gathering Unit ε α :=
  start (jobs.map (·, ·)) ()

/-- The turn of the member at one place. -/
def turn (gathering : Gathering σ ε α) (place : Nat) : Gathering σ ε α :=
  match gathering.members[place]? with
  | none => gathering
  | some member =>
      let begun := member.begin gathering.state
      let members := gathering.members.set place (.begun begun.1.turn)
      match begun.1.ending? with
      | none => { gathering with members, state := begun.2 }
      | some outcome =>
          ⟨members, begun.2, (gathering.wait.hear outcome).look members,
            gathering.ends ++ [⟨place, outcome⟩]⟩

/-- Turns of the members at some places, one after another. -/
def turns (gathering : Gathering σ ε α) (places : List Nat) : Gathering σ ε α :=
  places.foldl turn gathering

/-- Rounds, in each of which all members have a turn in the order of the list. -/
def rounds (gathering : Gathering σ ε α) : Nat → Gathering σ ε α
  | 0 => gathering
  | count + 1 =>
      let before := gathering.rounds count
      before.turns (List.range before.members.length)

/-- What is gathered, once the waits are over. -/
def gathered? (gathering : Gathering σ ε α) : Option (Except ε (List α)) :=
  gathering.wait.gathered?

/-- The places of the members that have ended without failure, in the order in
which they ended. -/
def completed (gathering : Gathering σ ε α) : List Nat :=
  gathering.ends.filterMap fun ending => if ending.outcome.isOk then some ending.index else none

/-- The rounds that members need to end. -/
def roundsLeft (gathering : Gathering σ ε α) : Nat :=
  gathering.members.foldr (fun member rounds => max member.turnsLeft rounds) 0

/-- The first round, in which all tasks begin, and the rounds that their jobs
need then. -/
def finish (gathering : Gathering σ ε α) : Gathering σ ε α :=
  let begun := gathering.rounds 1
  begun.rounds begun.roundsLeft

end Gathering

/-- What gathering some tasks brings when their rounds are over, and the state
that they leave. -/
def gatherTasks (tasks : List (Task σ ε α)) (state : σ) : Except ε (List α) × σ :=
  let finished := (Gathering.start tasks state).finish
  (finished.wait.result, finished.state)

end StyleSieve.Usage
