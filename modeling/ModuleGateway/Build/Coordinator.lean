import ModuleGateway.Build.Outcome

/-!
Builds that run once for any number of clients. The first client that asks for a key starts a job
with a producer; clients that ask while the job runs join it. A job ends when its producer returns
or panics, which frees the key and wakes every client that waits for it. A client that goes away
does not stop the job.

The coordinator is a system of labelled steps. A client that waits holds on to the job it joined,
not to the key, so a later job for the same key can never answer it.
-/

namespace ModuleGateway.Build

/-- A job is named by the number of jobs started before it. -/
abbrev JobId := Nat

/-- How a job ends. -/
inductive Ending where
  | returned (outcome : Outcome)
  | panicked
  deriving DecidableEq

/-- What the clients of a job that ended receive. -/
def Ending.outcome : Ending → Outcome
  | .returned outcome => outcome
  | .panicked => .failure "build task aborted before producing a result"

/-- A client that waits for a job. -/
structure Waiter where
  client : String
  job : JobId
  deriving DecidableEq, Repr

/-- A job that has not ended. -/
structure Running where
  key : String
  job : JobId
  deriving DecidableEq, Repr

/-- A result that a client has received. -/
structure Delivery where
  client : String
  job : JobId
  outcome : Outcome
  deriving DecidableEq

/-- The coordinator with its clients. -/
structure Coordinator where
  /-- The jobs that have not ended. -/
  running : List Running := []
  /-- The number of jobs started so far. -/
  started : Nat := 0
  /-- The jobs that ended, with the way they ended, latest first. -/
  ended : List (JobId × Ending) := []
  /-- The clients without a result, in the order they came. -/
  waiting : List Waiter := []
  deriving DecidableEq

namespace Coordinator

/-- What can happen to a coordinator. -/
inductive Event where
  /-- A client asks for a key. -/
  | build (client key : String)
  /-- The producer of the job for a key returns or panics. -/
  | finish (key : String) (ending : Ending)
  /-- A client goes away. -/
  | cancel (client : String)
  deriving DecidableEq

/-- The job that runs for a key. -/
def jobFor? (c : Coordinator) (key : String) : Option JobId :=
  (c.running.find? (·.key = key)).map Running.job

def isBuilding (c : Coordinator) (key : String) : Bool :=
  (c.jobFor? key).isSome

/-- The number of jobs that run. -/
def inFlight (c : Coordinator) : Nat :=
  c.running.length

/-- A client joins the job that runs for a key, or starts one. -/
def request (c : Coordinator) (client key : String) : Coordinator :=
  match c.jobFor? key with
  | some job => { c with waiting := c.waiting ++ [⟨client, job⟩] }
  | none =>
    { c with
      running := c.running ++ [⟨key, c.started⟩]
      started := c.started + 1
      waiting := c.waiting ++ [⟨client, c.started⟩] }

/-- The job for a key ends, and the key is free. Without such a job nothing happens. -/
def finish (c : Coordinator) (key : String) (ending : Ending) : Coordinator :=
  match c.jobFor? key with
  | some job =>
    { c with
      running := c.running.filter (·.key ≠ key)
      ended := (job, ending) :: c.ended }
  | none => c

theorem request_of_taken {c : Coordinator} {client key : String} {job : JobId}
    (h : c.jobFor? key = some job) :
    c.request client key = { c with waiting := c.waiting ++ [⟨client, job⟩] } := by
  rw [request, h]

theorem request_of_free {c : Coordinator} {client key : String} (h : c.jobFor? key = none) :
    c.request client key =
      { c with
        running := c.running ++ [⟨key, c.started⟩]
        started := c.started + 1
        waiting := c.waiting ++ [⟨client, c.started⟩] } := by
  rw [request, h]

theorem finish_of_taken {c : Coordinator} {key : String} {ending : Ending} {job : JobId}
    (h : c.jobFor? key = some job) :
    c.finish key ending =
      { c with
        running := c.running.filter (·.key ≠ key)
        ended := (job, ending) :: c.ended } := by
  rw [finish, h]

theorem finish_of_free {c : Coordinator} {key : String} {ending : Ending}
    (h : c.jobFor? key = none) : c.finish key ending = c := by
  rw [finish, h]

/-- A client goes away and receives nothing any more. -/
def cancel (c : Coordinator) (client : String) : Coordinator :=
  { c with waiting := c.waiting.filter (·.client ≠ client) }

/-- What happens to the coordinator, before any client wakes up. -/
def step (c : Coordinator) : Event → Coordinator
  | .build client key => c.request client key
  | .finish key ending => c.finish key ending
  | .cancel client => c.cancel client

/-- The results that wait for clients to wake up. -/
def due (c : Coordinator) : List Delivery :=
  c.waiting.filterMap fun w => (c.ended.lookup w.job).map fun e => ⟨w.client, w.job, e.outcome⟩

/-- A result that is due is that of the job its client waits for. -/
theorem ending_of_due {c : Coordinator} {d : Delivery} (h : d ∈ c.due) :
    ∃ waiter ∈ c.waiting, ∃ ending, c.ended.lookup waiter.job = some ending ∧
      d = ⟨waiter.client, waiter.job, ending.outcome⟩ := by
  obtain ⟨waiter, hWaiter, hFound⟩ := List.mem_filterMap.mp h
  obtain ⟨ending, hEnded, rfl⟩ := Option.map_eq_some_iff.mp hFound
  exact ⟨waiter, hWaiter, ending, hEnded, rfl⟩

/-- All clients of jobs that ended wake up and receive their results. -/
def wake (c : Coordinator) : List Delivery × Coordinator :=
  (c.due, { c with waiting := c.waiting.filter fun w => (c.ended.lookup w.job).isNone })

/-- A step after which every client that can wake up does. -/
def settle (c : Coordinator) (event : Event) : List Delivery × Coordinator :=
  (c.step event).wake

/-- All results that clients receive over a list of steps, with the last state. -/
def run (c : Coordinator) : List Event → List Delivery × Coordinator
  | [] => ([], c)
  | event :: events =>
    let (now, next) := c.settle event
    let (later, last) := next.run events
    (now ++ later, last)

end Coordinator

end ModuleGateway.Build
