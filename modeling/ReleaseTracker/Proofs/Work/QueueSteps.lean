import Mathlib.Logic.Hydra
import ReleaseTracker.Proofs.Program.Runs
import ReleaseTracker.Work.Queue

/-! What can happen while a queue is worked off (`Queue.Step`), which is what its moves do
(`step_iff`). Each step brings the loop or a job nearer to its end, so nothing goes on for ever
(`wellFounded_step`). The loop makes its steps whatever the jobs do, and the jobs do not gain by
more than they have left, so the steps of the loop come first in the order. -/

namespace ReleaseTracker

inductive Progress.Nearer : Progress → Progress → Prop
  | answered {query : Task.Query} {next : Task.Answer query → Work Outcome}
      (answer : Task.Answer query) :
      Nearer (.working (next answer)) (.working (.ask (I := Task) query next))
  | broken {query : Task.Query} {next : Task.Answer query → Work Outcome} (fault : Fault) :
      Nearer (.working (.stop fault)) (.working (.ask (I := Task) query next))
  | released {rest : Work Outcome} {result : Except Fault Outcome}
      (ended : rest.result? = some result) : Nearer (.ended result) (.working rest)
  | recorded (result : Except Fault Outcome) : Nearer (.recorded result) (.ended result)

theorem Progress.wellFounded_nearer : WellFounded Nearer := by
  -- from the end of a job back to its beginning
  have hrecorded : ∀ result, Acc Nearer (.recorded result) := by
    intro result
    exact ⟨_, nofun⟩
  have hended : ∀ result, Acc Nearer (.ended result) := by
    intro result
    refine ⟨_, ?_⟩
    rintro _ ⟨⟩
    exact hrecorded result
  have hstop : ∀ fault, Acc Nearer (.working (.stop fault)) := by
    intro fault
    refine ⟨_, ?_⟩
    rintro _ ⟨⟩
    exact hended _
  have hworking : ∀ rest, Acc Nearer (.working rest) := by
    intro rest
    induction rest with
    | done outcome =>
      refine ⟨_, ?_⟩
      rintro _ ⟨⟩
      exact hended _
    | stop fault => exact hstop fault
    | ask query next ih =>
      refine ⟨_, ?_⟩
      rintro _ (answer | fault | hresult)
      · exact ih answer
      · exact hstop fault
      · cases hresult
  refine ⟨fun progress => ?_⟩
  cases progress with
  | working rest => exact hworking rest
  | ended result => exact hended result
  | recorded result => exact hrecorded result

namespace Queue
variable {σ : Type}

inductive Step (engine : Engine) (answer : Handler Task Fault σ) :
    Queue × σ → Queue × σ → Prop
  | receive (item : WorkItem) (waiting : List WorkItem) (permits : Nat) (jobs : List Job)
      (stats : QueueStats) (s : σ) :
      Step engine answer (⟨item :: waiting, .receiving, permits, jobs, stats⟩, s)
        (⟨waiting, .admitting item, permits, jobs, stats⟩, s)
  | close (permits : Nat) (jobs : List Job) (stats : QueueStats) (s : σ) :
      Step engine answer (⟨[], .receiving, permits, jobs, stats⟩, s)
        (⟨[], .draining, permits, jobs, stats⟩, s)
  | permit (item : WorkItem) (waiting : List WorkItem) (permits : Nat) (jobs : List Job)
      (stats : QueueStats) (s : σ) :
      Step engine answer (⟨waiting, .admitting item, permits + 1, jobs, stats⟩, s)
        (⟨waiting, .dispatching item, permits, jobs, stats⟩, s)
  | dispatch (item : WorkItem) (waiting : List WorkItem) (permits : Nat) (jobs : List Job)
      (stats : QueueStats) (s : σ) :
      Step engine answer (⟨waiting, .dispatching item, permits, jobs, stats⟩, s)
        (⟨waiting, .collecting, permits, jobs ++ [engine.job item], stats⟩, s)
  | resume (waiting : List WorkItem) (permits : Nat) (jobs : List Job) (stats : QueueStats)
      (s : σ) :
      Step engine answer (⟨waiting, .collecting, permits, jobs, stats⟩, s)
        (⟨waiting, .receiving, permits, jobs, stats⟩, s)
  | leave (waiting : List WorkItem) (permits : Nat) {jobs : List Job} (stats : QueueStats) (s : σ)
      (drained : ∀ job ∈ jobs, job.isRecorded) :
      Step engine answer (⟨waiting, .draining, permits, jobs, stats⟩, s)
        (⟨waiting, .returned, permits, jobs, stats⟩, s)
  | turn (waiting : List WorkItem) (phase : Phase) (permits : Nat) (before after : List Job)
      (item : WorkItem) (query : Task.Query) (next : Task.Answer query → Work Outcome)
      (stats : QueueStats) (s : σ) :
      Step engine answer
        (⟨waiting, phase, permits,
          before ++ ⟨item, .working (.ask (I := Task) query next)⟩ :: after, stats⟩, s)
        (⟨waiting, phase, permits, before ++
          ⟨item, .working ((Program.ask (I := Task) query next).step answer s).1⟩ :: after,
          stats⟩, ((Program.ask (I := Task) query next).step answer s).2)
  | release (waiting : List WorkItem) (phase : Phase) (permits : Nat) (before after : List Job)
      (item : WorkItem) {rest : Work Outcome} {result : Except Fault Outcome} (stats : QueueStats)
      (s : σ) (ended : rest.result? = some result) :
      Step engine answer
        (⟨waiting, phase, permits, before ++ ⟨item, .working rest⟩ :: after, stats⟩, s)
        (⟨waiting, phase, permits + 1, before ++ ⟨item, .ended result⟩ :: after, stats⟩, s)
  | record (waiting : List WorkItem) {phase : Phase} (permits : Nat) (before after : List Job)
      (item : WorkItem) (result : Except Fault Outcome) (stats : QueueStats) (s : σ)
      (records : phase.records) :
      Step engine answer
        (⟨waiting, phase, permits, before ++ ⟨item, .ended result⟩ :: after, stats⟩, s)
        (⟨waiting, phase, permits, before ++ ⟨item, .recorded result⟩ :: after,
          stats.record result⟩, s)

abbrev Reaches (engine : Engine) (answer : Handler Task Fault σ) :
    Queue × σ → Queue × σ → Prop :=
  Relation.ReflTransGen (Step engine answer)

variable {engine : Engine} {answer : Handler Task Fault σ} {state state' : Queue × σ}

/-! Moves -/

theorem exists_split {jobs : List Job} {job : Job} {position : Nat}
    (h : jobs[position]? = some job) : ∃ before after, jobs = before ++ job :: after ∧
      ∀ job', jobs.set position job' = before ++ job' :: after := by
  obtain ⟨hposition, rfl⟩ := List.getElem?_eq_some_iff.mp h
  refine ⟨jobs.take position, jobs.drop (position + 1), ?_, fun job' => ?_⟩
  · rw [List.getElem_cons_drop, List.take_append_drop]
  · exact List.set_eq_take_append_cons_drop.trans (if_pos hposition)

@[simp] theorem getElem?_split (before after : List Job) (job : Job) :
    (before ++ job :: after)[before.length]? = some job := by
  simp

@[simp] theorem set_split (before after : List Job) (job job' : Job) :
    (before ++ job :: after).set before.length job' = before ++ job' :: after := by
  simp

theorem step_of_advance? {queue queue' : Queue} (s : σ)
    (h : queue.advance? engine = some queue') : Step engine answer (queue, s) (queue', s) := by
  obtain ⟨waiting, phase, permits, jobs, stats⟩ := queue
  cases phase with
  | receiving =>
    cases waiting with
    | nil =>
      obtain rfl := Option.some.inj h
      exact .close ..
    | cons item waiting =>
      obtain rfl := Option.some.inj h
      exact .receive ..
  | admitting item =>
    cases permits with
    | zero => cases h
    | succ permits =>
      obtain rfl := Option.some.inj h
      exact .permit ..
  | dispatching item =>
    obtain rfl := Option.some.inj h
    exact .dispatch ..
  | collecting =>
    obtain rfl := Option.some.inj h
    exact .resume ..
  | draining =>
    simp only [advance?] at h
    split at h
    · rename_i hall
      obtain rfl := Option.some.inj h
      exact .leave _ _ _ _ (List.all_eq_true.mp hall)
    · cases h
  | returned => cases h

theorem step_of_turn? {queue : Queue} {s : σ} {position : Nat}
    (h : queue.turn? answer position s = some state') : Step engine answer (queue, s) state' := by
  obtain ⟨waiting, phase, permits, jobs, stats⟩ := queue
  simp only [turn?] at h
  split at h
  · rename_i item rest hjob
    obtain ⟨before, after, rfl, hset⟩ := exists_split hjob
    cases rest with
    | done outcome =>
      obtain rfl := Option.some.inj h
      rw [hset]
      exact .release _ _ _ _ _ _ _ _ rfl
    | stop fault =>
      obtain rfl := Option.some.inj h
      rw [hset]
      exact .release _ _ _ _ _ _ _ _ rfl
    | ask query next =>
      obtain rfl := Option.some.inj h
      rw [hset]
      exact .turn ..
  · cases h

theorem step_of_record? {queue queue' : Queue} (s : σ) {position : Nat}
    (h : queue.record? position = some queue') : Step engine answer (queue, s) (queue', s) := by
  obtain ⟨waiting, phase, permits, jobs, stats⟩ := queue
  simp only [record?] at h
  split at h
  · rename_i item result hrecords hjob
    obtain ⟨before, after, rfl, hset⟩ := exists_split hjob
    obtain rfl := Option.some.inj h
    rw [hset]
    exact .record _ _ _ _ _ _ _ _ hrecords
  · cases h

theorem step_of_move? {move : Move} (h : move? engine answer state move = some state') :
    Step engine answer state state' := by
  obtain ⟨queue, s⟩ := state
  cases move with
  | loop =>
    obtain ⟨queue', hadvance, rfl⟩ := Option.map_eq_some_iff.mp h
    exact step_of_advance? s hadvance
  | job position => exact step_of_turn? h
  | record position =>
    obtain ⟨queue', hrecord, rfl⟩ := Option.map_eq_some_iff.mp h
    exact step_of_record? s hrecord

/-- What can happen is what moves do. -/
theorem step_iff :
    Step engine answer state state' ↔ ∃ move, move? engine answer state move = some state' := by
  constructor
  · intro hstep
    cases hstep with
    | receive | close | permit | dispatch | resume => exact ⟨.loop, rfl⟩
    | leave _ _ _ _ hdrained =>
      refine ⟨.loop, ?_⟩
      simp only [move?, advance?, if_pos (List.all_eq_true.mpr hdrained), Option.map_some]
    | turn _ _ _ before =>
      refine ⟨.job before.length, ?_⟩
      simp only [move?, turn?, getElem?_split, set_split, Program.result?]
    | release _ _ _ before _ _ _ _ hresult =>
      refine ⟨.job before.length, ?_⟩
      simp only [move?, turn?, getElem?_split, set_split, hresult]
    | record _ _ before _ _ _ _ _ hrecords =>
      refine ⟨.record before.length, ?_⟩
      simp only [move?, record?, getElem?_split, set_split, hrecords, Option.map_some]
  · rintro ⟨move, h⟩
    exact step_of_move? h

/-! Termination -/

def rank (queue : Queue) : Nat × Multiset Progress :=
  (queue.stepsLeft, (queue.jobs.map (·.progress) : List Progress))

theorem cutExpand_split {before after : List Job} {item : WorkItem} {progress progress' : Progress}
    (h : progress'.Nearer progress) : Relation.CutExpand Progress.Nearer
      (((before ++ ⟨item, progress'⟩ :: after).map (·.progress) : List Progress) :
        Multiset Progress)
      ((before ++ ⟨item, progress⟩ :: after).map (·.progress) : List Progress) := by
  have hsplit : ∀ p, (((before ++ ⟨item, p⟩ :: after).map (·.progress) : List Progress) :
      Multiset Progress) = {p} + ((before ++ after).map (·.progress) : List Progress) := by
    intro p
    rw [Multiset.singleton_add, Multiset.cons_coe, Multiset.coe_eq_coe]
    simp
  rw [hsplit, hsplit]
  exact (Relation.cutExpand_add_right _).mpr (Relation.cutExpand_singleton_singleton h)

theorem Step.rank_lt (hstep : Step engine answer state state') :
    Prod.Lex (· < ·) (Relation.CutExpand Progress.Nearer) state'.1.rank state.1.rank := by
  cases hstep with
  | receive =>
    refine .left _ _ ?_
    simp only [stepsLeft, Phase.stepsLeft, List.length_cons]
    omega
  | close | permit | dispatch | resume | leave =>
    refine .left _ _ ?_
    simp only [stepsLeft, Phase.stepsLeft]
    omega
  | turn _ _ _ _ _ _ query next _ s =>
    refine .right _ (cutExpand_split ?_)
    simp only [Program.step]
    rcases answer query s with ⟨fault | value, _⟩
    · exact .broken fault
    · exact .answered value
  | release _ _ _ _ _ _ _ _ hresult => exact .right _ (cutExpand_split (.released hresult))
  | record => exact .right _ (cutExpand_split (.recorded _))

/-- No queue goes on for ever, whatever happens in which order. -/
theorem wellFounded_step (engine : Engine) (answer : Handler Task Fault σ) :
    WellFounded fun after before => Step engine answer before after := by
  have hlex : WellFounded (Prod.Lex ((· < ·) : Nat → Nat → Prop)
      (Relation.CutExpand Progress.Nearer)) :=
    WellFounded.prod_lex wellFounded_lt Progress.wellFounded_nearer.cutExpand
  exact Subrelation.wf Step.rank_lt (InvImage.wf (fun state : Queue × σ => state.1.rank) hlex)

/-! Runs -/

theorem reaches_play (moves : List Move) (state : Queue × σ) :
    Reaches engine answer state (play engine answer moves state) := by
  induction moves generalizing state with
  | nil => exact .refl
  | cons move moves ih =>
    have hmove : Reaches engine answer state ((move? engine answer state move).getD state) := by
      cases h : move? engine answer state move with
      | none => exact .refl
      | some state' => exact .single (step_of_move? h)
    exact hmove.trans (ih _)

variable (waiting : List WorkItem) (phase : Phase) (permits : Nat) (before after : List Job)
  (item : WorkItem) (stats : QueueStats)

theorem reaches_run (rest : Work Outcome) (s : σ) : Reaches engine answer
    (⟨waiting, phase, permits, before ++ ⟨item, .working rest⟩ :: after, stats⟩, s)
    (⟨waiting, phase, permits + 1, before ++ ⟨item, .ended (rest.run answer s).1⟩ :: after, stats⟩,
      (rest.run answer s).2) := by
  induction rest generalizing s with
  | done outcome => exact .single (.release _ _ _ _ _ _ _ _ rfl)
  | stop fault => exact .single (.release _ _ _ _ _ _ _ _ rfl)
  | ask query next ih =>
    refine .head (.turn ..) ?_
    simp only [Program.step, Program.run]
    rcases answer query s with ⟨fault | value, s'⟩
    · exact .single (.release _ _ _ _ _ _ _ _ rfl)
    · exact ih value s'

theorem reaches_finishAll (jobs : List Job) (s : σ) : Reaches engine answer
    (⟨waiting, phase, permits, before ++ jobs, stats⟩, s)
    (⟨waiting, phase, permits + jobs.countP Job.isWorking,
      before ++ (Job.finishAll answer jobs s).1, stats⟩, (Job.finishAll answer jobs s).2) := by
  induction jobs generalizing before permits s with
  | nil => exact .refl
  | cons job jobs ih =>
    obtain ⟨item, progress⟩ := job
    cases progress with
    | working rest =>
      have hrest := ih (permits + 1) (before ++ [⟨item, .ended (rest.run answer s).1⟩])
        (rest.run answer s).2
      have hcount : List.countP Job.isWorking (⟨item, .working rest⟩ :: jobs) =
          jobs.countP Job.isWorking + 1 := List.countP_cons_of_pos rfl
      simp only [List.append_assoc, List.singleton_append] at hrest
      rw [hcount, Nat.add_comm _ 1, ← Nat.add_assoc]
      exact (reaches_run waiting phase permits before jobs item stats rest s).trans hrest
    | ended result | recorded result =>
      have hrest := fun progress => ih permits (before ++ [⟨item, progress⟩]) s
      simp only [List.append_assoc, List.singleton_append] at hrest
      exact hrest _

theorem reaches_settle (queue : Queue) (s : σ) :
    Reaches engine answer (queue, s) (queue.settle answer s) :=
  reaches_finishAll queue.waiting queue.phase queue.permits [] queue.stats queue.jobs s

variable {phase} in
theorem reaches_reported (hrecords : phase.records) (jobs : List Job) (s : σ) :
    Reaches engine answer (⟨waiting, phase, permits, before ++ jobs, stats⟩, s)
      (⟨waiting, phase, permits, before ++ jobs.map Job.reported,
        (jobs.filterMap Job.report?).foldl .record stats⟩, s) := by
  induction jobs generalizing before stats with
  | nil => exact .refl
  | cons job jobs ih =>
    obtain ⟨item, progress⟩ := job
    have hrest := fun stats => ih (before ++ [Job.reported ⟨item, progress⟩]) stats
    simp only [List.append_assoc, List.singleton_append] at hrest
    cases progress with
    | ended result => exact .head (.record _ _ _ _ _ _ _ _ hrecords) (hrest _)
    | working rest => exact hrest stats
    | recorded result => exact hrest stats

theorem reaches_collect (queue : Queue) (s : σ) :
    Reaches engine answer (queue, s) (queue.collect, s) := by
  unfold collect
  split
  · rename_i hrecords
    exact reaches_reported queue.waiting queue.permits [] queue.stats hrecords queue.jobs s
  · exact .refl

theorem reaches_advance (queue : Queue) (s : σ) :
    Reaches engine answer (queue, s) ((queue.advance? engine).getD queue, s) := by
  cases h : queue.advance? engine with
  | none => exact .refl
  | some queue' => exact .single (step_of_advance? s h)

theorem reaches_complete (steps : Nat) (state : Queue × σ) :
    Reaches engine answer state (complete engine answer steps state) := by
  induction steps generalizing state with
  | zero => exact .refl
  | succ steps ih =>
    obtain ⟨queue, s⟩ := state
    have hsettle : Reaches engine answer (queue, s) (queue.settle answer s) :=
      reaches_settle queue s
    have hcollect : Reaches engine answer (queue.settle answer s)
        ((queue.settle answer s).1.collect, (queue.settle answer s).2) := reaches_collect _ _
    exact hsettle.trans (hcollect.trans ((reaches_advance _ _).trans (ih _)))

theorem reaches_workOff (moves : List Move) (queue : Queue) (s : σ) :
    Reaches engine answer (queue, s) (queue.workOff engine answer moves s) :=
  (reaches_play moves (queue, s)).trans (reaches_complete _ _)

end Queue
end ReleaseTracker
