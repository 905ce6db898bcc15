import ReleaseTracker.Work.Engine

/-! A queue of items, worked off by so many jobs at a time. A loop receives the items in order,
waits for a permit for each of them, and dispatches a job that has the permit until its work ends.
What has ended is recorded between two items and after the last. The loop and the jobs go on in any
order (`Queue.Move`). What is left after the moves that are given from outside is brought to its end
in order (`Queue.complete`). -/

namespace ReleaseTracker

/-! Statistics -/

structure QueueStats where
  completed : Nat
  partly : Nat
  aborted : Nat
  failed : Nat
deriving DecidableEq, Repr

namespace QueueStats

inductive Kind where
  | completed
  | partly
  | aborted
  | failed
deriving DecidableEq, Repr

def Kind.of : Except Fault Outcome → Kind
  | .ok (.completed _) => .completed
  | .ok (.partly _ _) => .partly
  | .ok (.aborted _) => .aborted
  | .error _ => .failed

def empty : QueueStats := ⟨0, 0, 0, 0⟩

def count (stats : QueueStats) : Kind → Nat
  | .completed => stats.completed
  | .partly => stats.partly
  | .aborted => stats.aborted
  | .failed => stats.failed

def total (stats : QueueStats) : Nat :=
  stats.completed + stats.partly + stats.aborted + stats.failed

def add (stats : QueueStats) : Kind → QueueStats
  | .completed => { stats with completed := stats.completed + 1 }
  | .partly => { stats with partly := stats.partly + 1 }
  | .aborted => { stats with aborted := stats.aborted + 1 }
  | .failed => { stats with failed := stats.failed + 1 }

def record (stats : QueueStats) (result : Except Fault Outcome) : QueueStats :=
  stats.add (.of result)

def tally (results : List (Except Fault Outcome)) : QueueStats := results.foldl record empty

end QueueStats

/-! Jobs -/

structure Finished where
  item : WorkItem
  result : Except Fault Outcome

inductive Progress where
  /-- The rest of the work is to be done. The job has a permit. -/
  | working (rest : Work Outcome)
  | ended (result : Except Fault Outcome)
  | recorded (result : Except Fault Outcome)

structure Job where
  item : WorkItem
  progress : Progress

def Engine.job (engine : Engine) (item : WorkItem) : Job := ⟨item, .working (engine.handle item)⟩

namespace Job
variable {σ : Type}

def isWorking (job : Job) : Bool :=
  match job.progress with
  | .working _ => true
  | .ended _ | .recorded _ => false

def isRecorded (job : Job) : Bool :=
  match job.progress with
  | .recorded _ => true
  | .working _ | .ended _ => false

def report? (job : Job) : Option (Except Fault Outcome) :=
  match job.progress with
  | .ended result => some result
  | .working _ | .recorded _ => none

def finished? (job : Job) : Option Finished :=
  match job.progress with
  | .recorded result => some ⟨job.item, result⟩
  | .working _ | .ended _ => none

def reported (job : Job) : Job :=
  match job.progress with
  | .ended result => ⟨job.item, .recorded result⟩
  | .working _ | .recorded _ => job

def finish (answer : Handler Task Fault σ) (job : Job) (s : σ) : Job × σ :=
  match job.progress with
  | .working rest =>
    let (result, s) := rest.run answer s
    (⟨job.item, .ended result⟩, s)
  | .ended _ | .recorded _ => (job, s)

def finishAll (answer : Handler Task Fault σ) : List Job → σ → List Job × σ
  | [], s => ([], s)
  | job :: jobs, s =>
    let (job, s) := job.finish answer s
    let (jobs, s) := finishAll answer jobs s
    (job :: jobs, s)

end Job

/-! The queue -/

inductive Phase where
  | receiving
  | admitting (item : WorkItem)
  | dispatching (item : WorkItem)
  | collecting
  | draining
  | returned

namespace Phase

def held : Phase → List WorkItem
  | .admitting item | .dispatching item => [item]
  | .receiving | .collecting | .draining | .returned => []

def permits : Phase → Nat
  | .dispatching _ => 1
  | .receiving | .admitting _ | .collecting | .draining | .returned => 0

def records : Phase → Bool
  | .collecting | .draining => true
  | .receiving | .admitting _ | .dispatching _ | .returned => false

def stepsLeft : Phase → Nat
  | .admitting _ => 5
  | .dispatching _ => 4
  | .collecting => 3
  | .receiving => 2
  | .draining => 1
  | .returned => 0

end Phase

structure Queue where
  waiting : List WorkItem
  phase : Phase
  /-- The permits that nobody has. -/
  permits : Nat
  jobs : List Job
  stats : QueueStats

namespace Queue
variable {σ : Type}

def greatestConcurrency : Nat := Nat.pow 2 61 - 1

def start (concurrency : Nat) (items : List WorkItem) : Queue where
  waiting := items
  phase := .receiving
  permits := max concurrency 1
  jobs := []
  stats := .empty

def start? (concurrency : Nat) (items : List WorkItem) : Option Queue :=
  if greatestConcurrency < max concurrency 1 then none else some (start concurrency items)

def working (queue : Queue) : Nat := queue.jobs.countP Job.isWorking

def stepsLeft (queue : Queue) : Nat := queue.phase.stepsLeft + 4 * queue.waiting.length

inductive Move where
  | loop
  | job (position : Nat)
  | record (position : Nat)
deriving DecidableEq, Repr

def advance? (engine : Engine) (queue : Queue) : Option Queue :=
  match queue.phase with
  | .receiving =>
    match queue.waiting with
    | item :: waiting => some { queue with waiting, phase := .admitting item }
    | [] => some { queue with phase := .draining }
  | .admitting item =>
    if queue.permits = 0 then none
    else some { queue with permits := queue.permits - 1, phase := .dispatching item }
  | .dispatching item =>
    some { queue with jobs := queue.jobs ++ [engine.job item], phase := .collecting }
  | .collecting => some { queue with phase := .receiving }
  | .draining =>
    if queue.jobs.all Job.isRecorded then some { queue with phase := .returned } else none
  | .returned => none

def turn? (answer : Handler Task Fault σ) (position : Nat) (queue : Queue) (s : σ) :
    Option (Queue × σ) :=
  match queue.jobs[position]? with
  | some ⟨item, .working rest⟩ =>
    match rest.result? with
    | none =>
      let (rest, s) := rest.step answer s
      some ({ queue with jobs := queue.jobs.set position ⟨item, .working rest⟩ }, s)
    | some result =>
      some ({ queue with
        permits := queue.permits + 1, jobs := queue.jobs.set position ⟨item, .ended result⟩ }, s)
  | _ => none

def record? (position : Nat) (queue : Queue) : Option Queue :=
  match queue.phase.records, queue.jobs[position]? with
  | true, some ⟨item, .ended result⟩ =>
    some { queue with
      jobs := queue.jobs.set position ⟨item, .recorded result⟩, stats := queue.stats.record result }
  | _, _ => none

def move? (engine : Engine) (answer : Handler Task Fault σ) (state : Queue × σ) :
    Move → Option (Queue × σ)
  | .loop => (state.1.advance? engine).map (·, state.2)
  | .job position => state.1.turn? answer position state.2
  | .record position => (state.1.record? position).map (·, state.2)

/-- Make moves in order. Those that cannot be made are left out. -/
def play (engine : Engine) (answer : Handler Task Fault σ) (moves : List Move)
    (state : Queue × σ) : Queue × σ :=
  moves.foldl (fun state move => (move? engine answer state move).getD state) state

def settle (answer : Handler Task Fault σ) (queue : Queue) (s : σ) : Queue × σ :=
  let (jobs, s) := Job.finishAll answer queue.jobs s
  ({ queue with jobs, permits := queue.permits + queue.working }, s)

def collect (queue : Queue) : Queue :=
  if queue.phase.records then
    { queue with
      jobs := queue.jobs.map Job.reported
      stats := (queue.jobs.filterMap Job.report?).foldl .record queue.stats }
  else queue

def complete (engine : Engine) (answer : Handler Task Fault σ) :
    Nat → Queue × σ → Queue × σ
  | 0, state => state
  | steps + 1, (queue, s) =>
    let (queue, s) := queue.settle answer s
    let queue := queue.collect
    complete engine answer steps ((queue.advance? engine).getD queue, s)

def workOff (engine : Engine) (answer : Handler Task Fault σ) (moves : List Move) (queue : Queue)
    (s : σ) : Queue × σ :=
  let (queue, s) := play engine answer moves (queue, s)
  complete engine answer queue.stepsLeft (queue, s)

def finished (queue : Queue) : List Finished := queue.jobs.filterMap Job.finished?

end Queue

variable {σ : Type}

def Engine.workOff (engine : Engine) (answer : Handler Task Fault σ) (concurrency : Nat)
    (moves : List Queue.Move) (items : List WorkItem) (s : σ) : Queue × σ :=
  (Queue.start concurrency items).workOff engine answer moves s

def Engine.runQueue (engine : Engine) (answer : Handler Task Fault σ) (concurrency : Nat)
    (moves : List Queue.Move) (items : List WorkItem) (s : σ) : QueueStats × σ :=
  let (queue, s) := engine.workOff answer concurrency moves items s
  (queue.stats, s)

def Engine.runQueue? (engine : Engine) (answer : Handler Task Fault σ) (concurrency : Nat)
    (moves : List Queue.Move) (items : List WorkItem) (s : σ) : Option (QueueStats × σ) :=
  (Queue.start? concurrency items).map fun queue =>
    let (queue, s) := queue.workOff engine answer moves s
    (queue.stats, s)

end ReleaseTracker
