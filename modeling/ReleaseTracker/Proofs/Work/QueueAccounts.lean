import ReleaseTracker.Proofs.Work.QueueSteps

/-! The accounts of a queue. An item waits, is in the hands of the loop, or has been dispatched, and
a permit is free, in the hands of the loop, or with a job that works (`Queue.Sound`). So a job that
has ended in whatever way makes room for the next item, something can happen until the loop returns,
and by then the statistics contain each item once. -/

namespace ReleaseTracker

/-! Statistics -/

namespace QueueStats

theorem ext_count {stats stats' : QueueStats} (h : ∀ kind, stats.count kind = stats'.count kind) :
    stats = stats' := by
  obtain ⟨completed, partly, aborted, failed⟩ := stats
  obtain rfl : completed = _ := h .completed
  obtain rfl : partly = _ := h .partly
  obtain rfl : aborted = _ := h .aborted
  obtain rfl : failed = _ := h .failed
  rfl

theorem count_record (stats : QueueStats) (result : Except Fault Outcome) (kind : Kind) :
    (stats.record result).count kind =
      stats.count kind + if Kind.of result = kind then 1 else 0 := by
  unfold record
  cases Kind.of result <;> cases kind <;> rfl

theorem total_record (stats : QueueStats) (result : Except Fault Outcome) :
    (stats.record result).total = stats.total + 1 := by
  unfold record
  cases Kind.of result <;> simp only [add, total] <;> omega

theorem count_foldl (results : List (Except Fault Outcome)) (stats : QueueStats) (kind : Kind) :
    (results.foldl record stats).count kind =
      stats.count kind + results.countP fun result => Kind.of result = kind := by
  induction results generalizing stats with
  | nil => rfl
  | cons result results ih =>
    rw [List.foldl_cons, ih, count_record, List.countP_cons]
    simp only [decide_eq_true_eq]
    omega

theorem count_tally (results : List (Except Fault Outcome)) (kind : Kind) :
    (tally results).count kind = results.countP fun result => Kind.of result = kind := by
  have hempty : empty.count kind = 0 := by cases kind <;> rfl
  rw [tally, count_foldl, hempty, Nat.zero_add]

theorem total_tally (results : List (Except Fault Outcome)) :
    (tally results).total = results.length := by
  have hfoldl : ∀ stats : QueueStats,
      (results.foldl record stats).total = stats.total + results.length := by
    induction results with
    | nil => exact fun _ => rfl
    | cons result results ih =>
      intro stats
      rw [List.foldl_cons, ih, total_record, List.length_cons]
      omega
  have hempty : empty.total = 0 := rfl
  rw [tally, hfoldl, hempty, Nat.zero_add]

theorem tally_append_cons (before after : List (Except Fault Outcome))
    (result : Except Fault Outcome) :
    tally (before ++ result :: after) = (tally (before ++ after)).record result := by
  apply ext_count
  intro kind
  rw [count_record, count_tally, count_tally]
  simp only [List.countP_append, List.countP_cons, decide_eq_true_eq]
  omega

end QueueStats

/-! Results -/

def Program.Becomes {I : Interface} {ε α σ : Type} (answer : Handler I ε σ) :
    Program I ε α → Program I ε α → Prop :=
  Relation.ReflTransGen fun p p' => ∃ s, p' = (p.step answer s).1

section Accounts
variable {σ : Type} {engine : Engine} {answer : Handler Task Fault σ} {concurrency : Nat}
  {items : List WorkItem}

def Engine.CanEnd (engine : Engine) (answer : Handler Task Fault σ) (item : WorkItem)
    (result : Except Fault Outcome) : Prop :=
  ∃ rest, Program.Becomes answer (engine.handle item) rest ∧ rest.result? = some result

inductive Job.Follows (engine : Engine) (answer : Handler Task Fault σ) : Job → Prop
  | working {item : WorkItem} {rest : Work Outcome}
      (becomes : Program.Becomes answer (engine.handle item) rest) :
      Follows engine answer ⟨item, .working rest⟩
  | ended {item : WorkItem} {result : Except Fault Outcome}
      (canEnd : engine.CanEnd answer item result) : Follows engine answer ⟨item, .ended result⟩
  | recorded {item : WorkItem} {result : Except Fault Outcome}
      (canEnd : engine.CanEnd answer item result) : Follows engine answer ⟨item, .recorded result⟩

namespace Queue

/-! What holds at any time -/

structure Sound (engine : Engine) (answer : Handler Task Fault σ) (concurrency : Nat)
    (items : List WorkItem) (queue : Queue) : Prop where
  dispatched : queue.jobs.map (·.item) ++ (queue.phase.held ++ queue.waiting) = items
  permitted : queue.permits + queue.phase.permits + queue.working = max concurrency 1
  tallied : queue.stats = .tally (queue.finished.map (·.result))
  followed : ∀ job ∈ queue.jobs, job.Follows engine answer
  closed : queue.phase.stepsLeft ≤ 1 → queue.waiting = []
  drained : queue.phase = .returned → ∀ job ∈ queue.jobs, job.isRecorded

theorem sound_start (engine : Engine) (answer : Handler Task Fault σ) (concurrency : Nat)
    (items : List WorkItem) : (start concurrency items).Sound engine answer concurrency items where
  dispatched := rfl
  permitted := rfl
  tallied := rfl
  followed := List.forall_mem_nil _
  closed := nofun
  drained := nofun

variable {queue : Queue} {state state' : Queue × σ}

section Split
variable (waiting : List WorkItem) (phase : Phase) (permits : Nat) (before after : List Job)
  (job job' : Job) (stats : QueueStats)

theorem working_split : working ⟨waiting, phase, permits, before ++ job :: after, stats⟩ =
    (before ++ after).countP Job.isWorking + if job.isWorking then 1 else 0 := by
  simp only [working, List.countP_append, List.countP_cons]
  omega

theorem finished_split : finished ⟨waiting, phase, permits, before ++ job :: after, stats⟩ =
    before.filterMap Job.finished? ++ (job.finished?.toList ++ after.filterMap Job.finished?) := by
  simp only [finished, List.filterMap_append]
  cases h : job.finished? with
  | none => rw [List.filterMap_cons_none h, Option.toList_none, List.nil_append]
  | some finished => rw [List.filterMap_cons_some h, Option.toList_some, List.singleton_append]

variable {before after job job'}

theorem Sound.replace {permits' : Nat} {stats' : QueueStats}
    (h : Sound engine answer concurrency items
      ⟨waiting, phase, permits, before ++ job :: after, stats⟩)
    (hitem : job'.item = job.item) (hfollows : job'.Follows engine answer)
    (hunrecorded : job.isRecorded = false)
    (hpermits : permits' + (if job'.isWorking then 1 else 0) =
      permits + if job.isWorking then 1 else 0)
    (htally : stats' = .tally (Queue.finished ⟨waiting, phase, permits',
      before ++ job' :: after, stats'⟩ |>.map (·.result))) :
    Sound engine answer concurrency items
      ⟨waiting, phase, permits', before ++ job' :: after, stats'⟩ where
  dispatched := by
    have hitems := h.dispatched
    simpa [hitem] using hitems
  permitted := by
    have hbefore := h.permitted
    rw [working_split] at hbefore ⊢
    dsimp only at hbefore ⊢
    omega
  tallied := htally
  followed := by
    have hbefore := h.followed
    simp only [List.forall_mem_append, List.forall_mem_cons] at hbefore ⊢
    exact ⟨hbefore.1, hfollows, hbefore.2.2⟩
  closed := h.closed
  drained := by
    intro hphase
    have hjob := h.drained hphase job (List.mem_append_cons_self)
    rw [hunrecorded] at hjob
    cases hjob

end Split

theorem Step.sound (hstep : Step engine answer state state')
    (h : state.1.Sound engine answer concurrency items) :
    state'.1.Sound engine answer concurrency items := by
  cases hstep with
  | receive => exact { h with dispatched := h.dispatched, closed := nofun, drained := nofun }
  | close => exact { h with closed := fun _ => rfl, drained := nofun }
  | permit =>
    have hpermitted := h.permitted
    refine { h with permitted := ?_, closed := nofun, drained := nofun }
    simp only [Phase.permits, working] at hpermitted ⊢
    omega
  | dispatch item waiting permits jobs =>
    -- the item and its permit pass from the loop to a job that has not finished
    have hitems := h.dispatched
    have hpermitted := h.permitted
    have htallied := h.tallied
    refine ⟨?_, ?_, ?_, ?_, nofun, nofun⟩
    · simpa [Phase.held, Engine.job] using hitems
    · have hcount : [engine.job item].countP Job.isWorking = 1 := rfl
      simp only [Phase.permits, working, List.countP_append, hcount] at hpermitted ⊢
      omega
    · have hnone : [engine.job item].filterMap Job.finished? = [] := rfl
      rw [htallied]
      simp only [finished, List.filterMap_append, hnone, List.append_nil]
    · exact List.forall_mem_append.mpr
        ⟨h.followed, List.forall_mem_singleton.mpr (.working .refl)⟩
  | resume => exact { h with closed := nofun, drained := nofun }
  | leave _ _ _ _ hdrained =>
    exact { h with closed := fun _ => h.closed le_rfl, drained := fun _ => hdrained }
  | turn waiting phase permits before after item query next stats s =>
    have hjob := h.followed _ List.mem_append_cons_self
    cases hjob with
    | working hbecomes =>
      refine h.replace waiting phase permits stats rfl (.working (hbecomes.tail ⟨s, rfl⟩)) rfl rfl
        ?_
      rw [finished_split]
      have htallied := h.tallied
      rwa [finished_split] at htallied
  | release waiting phase permits before after item stats s hresult =>
    have hjob := h.followed _ List.mem_append_cons_self
    cases hjob with
    | working hbecomes =>
      refine h.replace waiting phase permits stats rfl (.ended ⟨_, hbecomes, hresult⟩) rfl rfl ?_
      rw [finished_split]
      have htallied := h.tallied
      rwa [finished_split] at htallied
  | record waiting permits before after item result stats s hrecords =>
    have hjob := h.followed _ List.mem_append_cons_self
    cases hjob with
    | ended hcanEnd =>
      refine h.replace waiting _ permits stats rfl (.recorded hcanEnd) rfl rfl ?_
      have htallied := h.tallied
      rw [finished_split] at htallied ⊢
      simp only [Job.finished?, Option.toList_none, Option.toList_some, List.nil_append,
        List.singleton_append, List.map_append, List.map_cons] at htallied ⊢
      -- the results may be counted in any order
      rw [QueueStats.tally_append_cons]
      exact congrArg (QueueStats.record · result) htallied

theorem Reaches.sound (hreaches : Reaches engine answer state state')
    (h : state.1.Sound engine answer concurrency items) :
    state'.1.Sound engine answer concurrency items := by
  induction hreaches with
  | refl => exact h
  | tail _ hstep ih => exact hstep.sound ih

/-! Something can always happen -/

theorem exists_step_of_working {job : Job} (hjob : job ∈ queue.jobs) (hworking : job.isWorking)
    (s : σ) : ∃ state', Step engine answer (queue, s) state' := by
  obtain ⟨waiting, phase, permits, jobs, stats⟩ := queue
  obtain ⟨before, after, rfl⟩ := List.append_of_mem hjob
  obtain ⟨item, progress⟩ := job
  cases progress with
  | working rest =>
    cases rest with
    | done outcome => exact ⟨_, .release _ _ _ _ _ _ _ _ rfl⟩
    | stop fault => exact ⟨_, .release _ _ _ _ _ _ _ _ rfl⟩
    | ask query next => exact ⟨_, .turn ..⟩
  | ended result | recorded result => cases hworking

theorem exists_step_of_unrecorded {job : Job} (hjob : job ∈ queue.jobs)
    (hunrecorded : ¬job.isRecorded) (hrecords : queue.phase.records) (s : σ) :
    ∃ state', Step engine answer (queue, s) state' := by
  obtain ⟨item, progress⟩ := job
  cases progress with
  | working rest => exact exists_step_of_working hjob rfl s
  | ended result =>
    obtain ⟨waiting, phase, permits, jobs, stats⟩ := queue
    obtain ⟨before, after, rfl⟩ := List.append_of_mem hjob
    exact ⟨_, .record _ _ _ _ _ _ _ _ hrecords⟩
  | recorded result => exact absurd rfl hunrecorded

theorem Sound.advances (h : queue.Sound engine answer concurrency items)
    (hphase : queue.phase ≠ .returned) (hidle : queue.working = 0)
    (hrecorded : queue.phase.records → ∀ job ∈ queue.jobs, job.isRecorded) :
    ∃ queue', queue.advance? engine = some queue' ∧ queue.stepsLeft = queue'.stepsLeft + 1 := by
  have hpermitted := h.permitted
  obtain ⟨waiting, phase, permits, jobs, stats⟩ := queue
  cases phase with
  | receiving =>
    cases waiting with
    | nil => exact ⟨_, rfl, rfl⟩
    | cons item waiting =>
      refine ⟨_, rfl, ?_⟩
      simp only [stepsLeft, Phase.stepsLeft, List.length_cons]
      omega
  | admitting item =>
    -- no job works, so nobody has a permit
    have hsome : permits ≠ 0 := by
      intro hzero
      rw [hidle] at hpermitted
      simp only [hzero, Phase.permits] at hpermitted
      omega
    refine ⟨_, if_neg hsome, ?_⟩
    simp only [stepsLeft, Phase.stepsLeft]
    omega
  | dispatching item | collecting =>
    refine ⟨_, rfl, ?_⟩
    simp only [stepsLeft, Phase.stepsLeft]
    omega
  | draining =>
    refine ⟨_, if_pos (List.all_eq_true.mpr (hrecorded rfl)), ?_⟩
    simp only [stepsLeft, Phase.stepsLeft]
    omega
  | returned => exact absurd rfl hphase

/-- Something can happen until the loop has returned: a job goes on, a result is recorded, or the
loop goes on. -/
theorem Sound.progress (h : queue.Sound engine answer concurrency items)
    (hphase : queue.phase ≠ .returned) (s : σ) :
    ∃ state', Step engine answer (queue, s) state' := by
  by_cases hidle : queue.working = 0
  · by_cases hrecorded : queue.phase.records → ∀ job ∈ queue.jobs, job.isRecorded
    · obtain ⟨queue', hadvance, -⟩ := h.advances hphase hidle hrecorded
      exact ⟨_, step_of_advance? s hadvance⟩
    · push Not at hrecorded
      obtain ⟨hrecords, job, hjob, hunrecorded⟩ := hrecorded
      exact exists_step_of_unrecorded hjob hunrecorded hrecords s
  · obtain ⟨job, hjob, hworking⟩ := List.countP_pos_iff.mp (Nat.pos_of_ne_zero hidle)
    exact exists_step_of_working hjob hworking s

/-! The end -/

theorem isWorking_finishAll (jobs : List Job) (s : σ) :
    ∀ job ∈ (Job.finishAll answer jobs s).1, job.isWorking = false := by
  induction jobs generalizing s with
  | nil => exact List.forall_mem_nil _
  | cons job jobs ih =>
    obtain ⟨item, progress⟩ := job
    refine List.forall_mem_cons.mpr ⟨?_, ih _⟩
    cases progress <;> rfl

theorem isWorking_settle (queue : Queue) (s : σ) :
    ∀ job ∈ (queue.settle answer s).1.jobs, job.isWorking = false :=
  isWorking_finishAll queue.jobs s

theorem isWorking_reported (job : Job) : job.reported.isWorking = job.isWorking := by
  obtain ⟨item, progress⟩ := job
  cases progress <;> rfl

theorem isRecorded_reported {job : Job} (hidle : job.isWorking = false) :
    job.reported.isRecorded := by
  obtain ⟨item, progress⟩ := job
  cases progress with
  | working rest => cases hidle
  | ended result | recorded result => rfl

section Collect
variable (hidle : ∀ job ∈ queue.jobs, job.isWorking = false)
include hidle

theorem working_collect : queue.collect.working = 0 := by
  rw [working, List.countP_eq_zero]
  unfold collect
  split
  · simp only [List.forall_mem_map, isWorking_reported]
    exact fun job hjob => by simp [hidle job hjob]
  · exact fun job hjob => by simp [hidle job hjob]

theorem recorded_collect (hrecords : queue.phase.records) :
    ∀ job ∈ queue.collect.jobs, job.isRecorded := by
  rw [collect, if_pos hrecords]
  exact List.forall_mem_map.mpr fun job hjob => isRecorded_reported (hidle job hjob)

end Collect

theorem phase_collect (queue : Queue) : queue.collect.phase = queue.phase := by
  unfold collect
  split <;> rfl

theorem stepsLeft_collect (queue : Queue) : queue.collect.stepsLeft = queue.stepsLeft := by
  unfold collect
  split <;> rfl

theorem Sound.returned_complete (h : queue.Sound engine answer concurrency items) (s : σ) :
    (complete engine answer queue.stepsLeft (queue, s)).1.phase = .returned := by
  -- when all jobs have come to their ends, the loop can make one of the steps that are left
  generalize hsteps : queue.stepsLeft = steps
  induction steps generalizing queue s with
  | zero =>
    have hphase : queue.phase.stepsLeft = 0 := by
      simp only [stepsLeft] at hsteps
      omega
    show queue.phase = .returned
    cases hqueue : queue.phase with
    | returned => rfl
    | _ => simp [hqueue, Phase.stepsLeft] at hphase
  | succ steps ih =>
    have hidle : ∀ job ∈ (queue.settle answer s).1.jobs, job.isWorking = false :=
      isWorking_settle queue s
    have hreaches : Reaches engine answer (queue, s) (queue.settle answer s) :=
      reaches_settle queue s
    have hsame : (queue.settle answer s).1.stepsLeft = queue.stepsLeft := rfl
    rw [complete]
    generalize queue.settle answer s = state at hidle hreaches hsame ⊢
    obtain ⟨settled, s'⟩ := state
    dsimp only at hidle hsame ⊢
    have hsound : settled.collect.Sound engine answer concurrency items :=
      Reaches.sound (hreaches.trans (reaches_collect settled s')) h
    have hleft : settled.collect.stepsLeft = steps + 1 := by
      rw [stepsLeft_collect, hsame, hsteps]
    have hphase : settled.collect.phase ≠ .returned := by
      intro hphase
      have hwaiting := hsound.closed (by simp only [hphase, Phase.stepsLeft]; omega)
      simp only [stepsLeft, hphase, hwaiting, Phase.stepsLeft, List.length_nil] at hleft
      omega
    have hrecorded : settled.collect.phase.records →
        ∀ job ∈ settled.collect.jobs, job.isRecorded := by
      rw [phase_collect]
      exact recorded_collect hidle
    obtain ⟨queue', hadvance, hless⟩ := hsound.advances hphase (working_collect hidle) hrecorded
    have hstep : Step engine answer (settled.collect, s') (queue', s') :=
      step_of_advance? s' hadvance
    have hqueue' : queue'.Sound engine answer concurrency items := hstep.sound hsound
    rw [hadvance]
    exact ih hqueue' s' (by omega)

theorem finished_items {jobs : List Job} (h : ∀ job ∈ jobs, job.isRecorded) :
    (jobs.filterMap Job.finished?).map (·.item) = jobs.map (·.item) := by
  induction jobs with
  | nil => rfl
  | cons job jobs ih =>
    obtain ⟨hjob, hjobs⟩ := List.forall_mem_cons.mp h
    obtain ⟨item, progress⟩ := job
    cases progress with
    | recorded result => exact congrArg (item :: ·) (ih hjobs)
    | working rest | ended result => cases hjob

structure WorkedOff (engine : Engine) (answer : Handler Task Fault σ) (items : List WorkItem)
    (queue : Queue) : Prop where
  complete : queue.finished.map (·.item) = items
  results : ∀ finished ∈ queue.finished, engine.CanEnd answer finished.item finished.result
  counts : ∀ kind, queue.stats.count kind =
    queue.finished.countP fun finished => QueueStats.Kind.of finished.result = kind
  total : queue.stats.total = items.length

theorem Sound.workedOff (h : queue.Sound engine answer concurrency items)
    (hphase : queue.phase = .returned) : queue.WorkedOff engine answer items := by
  have hitems : queue.finished.map (·.item) = items := by
    have hdispatched := h.dispatched
    rw [h.closed (by simp [hphase, Phase.stepsLeft]), hphase] at hdispatched
    rw [finished, finished_items (h.drained hphase)]
    simpa [Phase.held] using hdispatched
  refine ⟨hitems, ?_, ?_, ?_⟩
  · intro last hlast
    obtain ⟨job, hjob, hfinished⟩ := List.mem_filterMap.mp hlast
    cases h.followed job hjob with
    | recorded hcanEnd =>
      obtain rfl := Option.some.inj hfinished
      exact hcanEnd
    | working | ended => cases hfinished
  · intro kind
    rw [h.tallied, QueueStats.count_tally, List.countP_map]
    rfl
  · rw [h.tallied, QueueStats.total_tally, List.length_map, ← hitems, List.length_map]

/-! The accounts -/

structure Accounted (engine : Engine) (answer : Handler Task Fault σ) (concurrency : Nat)
    (items : List WorkItem) (state : Queue × σ) : Prop where
  /-- Each item has been dispatched in its order, is the one in the loop's hands, or waits. -/
  dispatched : state.1.jobs.map (·.item) ++ (state.1.phase.held ++ state.1.waiting) = items
  bounded : state.1.working ≤ max concurrency 1
  progress : state.1.phase ≠ .returned → ∃ state', Step engine answer state state'
  /-- Nothing that can follow goes on for ever. -/
  ends : Acc (fun after before => Step engine answer before after) state
  workedOff : state.1.phase = .returned → state.1.WorkedOff engine answer items

theorem Sound.accounted (h : state.1.Sound engine answer concurrency items) :
    Accounted engine answer concurrency items state where
  dispatched := h.dispatched
  bounded := by
    have hpermitted := h.permitted
    omega
  progress hphase := h.progress hphase state.2
  ends := (wellFounded_step engine answer).apply state
  workedOff := h.workedOff

theorem start?_eq_none_iff :
    start? concurrency items = none ↔ greatestConcurrency < concurrency := by
  have hone : 1 ≤ greatestConcurrency := by decide
  unfold start?
  split_ifs with h
  · exact ⟨fun _ => by omega, fun _ => rfl⟩
  · exact ⟨nofun, fun _ => by omega⟩

theorem eq_start_of_start? (h : start? concurrency items = some queue) :
    queue = start concurrency items := by
  unfold start? at h
  split_ifs at h
  exact (Option.some.inj h).symm

variable (engine answer) in
theorem runQueue?_returns {queue : Queue} (hstart : start? concurrency items = some queue)
    (moves : List Move) (s : σ) : ∃ last s', Reaches engine answer (queue, s) (last, s') ∧
      last.phase = .returned ∧
      engine.runQueue? answer concurrency moves items s = some (last.stats, s') := by
  obtain rfl := eq_start_of_start? hstart
  let played := play engine answer moves (start concurrency items, s)
  have hplayed : played.1.Sound engine answer concurrency items :=
    (reaches_play moves _).sound (sound_start engine answer concurrency items)
  refine ⟨_, _, reaches_workOff moves (start concurrency items) s,
    hplayed.returned_complete played.2, ?_⟩
  rw [Engine.runQueue?, hstart]
  rfl

end Queue

end Accounts

open Queue

/-- Unless its permits cannot be counted, a queue is worked off without losing any item or counting
it twice, in whatever order things happen and whatever the surroundings answer. -/
theorem runQueue_accounted {σ : Type} (engine : Engine) (answer : Handler Task Fault σ)
    (concurrency : Nat) (items : List WorkItem) (s : σ) :
    (∀ moves, engine.runQueue? answer concurrency moves items s = none ↔
      greatestConcurrency < concurrency) ∧
    ∀ queue, start? concurrency items = some queue →
      (∀ state, Reaches engine answer (queue, s) state →
        Accounted engine answer concurrency items state) ∧
      ∀ moves, ∃ last s', Reaches engine answer (queue, s) (last, s') ∧ last.phase = .returned ∧
        engine.runQueue? answer concurrency moves items s = some (last.stats, s') := by
  refine ⟨fun moves => Option.map_eq_none_iff.trans start?_eq_none_iff, fun queue hstart => ?_⟩
  refine ⟨fun state hreaches => ?_, fun moves => runQueue?_returns engine answer hstart moves s⟩
  obtain rfl := eq_start_of_start? hstart
  exact (hreaches.sound (sound_start engine answer concurrency items)).accounted

namespace Queue.Sample

def answer : Handler Task Fault Nat
  | .store .userCredentials, asked =>
    (if asked = 1 then .error .crashed else .ok (Except.ok []), asked + 1)
  | _, asked => (.error .crashed, asked)

def engine : Engine := ⟨⟨none, 0, 0⟩, .default 1⟩

def items : List WorkItem := [.stars 1, .versions 2, .stars 3]

def moves : List Move := List.replicate 9 .loop ++ [.job 1, .job 0, .job 1, .loop, .job 0]

end Queue.Sample

theorem runQueue_accounted_crashing :
    (∃ last s', Reaches Sample.engine Sample.answer (start 2 Sample.items, 0) (last, s') ∧
      last.WorkedOff Sample.engine Sample.answer Sample.items ∧ last.stats = ⟨0, 0, 2, 1⟩) ∧
    Sample.engine.runQueue? Sample.answer 2305843009213693952 Sample.moves Sample.items 0 =
      none := by
  have hstart : start? 2 Sample.items = some (start 2 Sample.items) := if_neg (by decide)
  have hstats : Sample.engine.runQueue? Sample.answer 2 Sample.moves Sample.items 0 =
      some (⟨0, 0, 2, 1⟩, 3) := by decide +kernel
  obtain ⟨-, hqueue⟩ := runQueue_accounted Sample.engine Sample.answer 2 Sample.items 0
  obtain ⟨hreached, hruns⟩ := hqueue _ hstart
  obtain ⟨last, s', hreaches, hphase, hrun⟩ := hruns Sample.moves
  have haccounted := hreached _ hreaches
  have hlast : last.stats = ⟨0, 0, 2, 1⟩ :=
    congrArg Prod.fst (Option.some.inj (hrun.symm.trans hstats))
  refine ⟨⟨last, s', hreaches, haccounted.workedOff hphase, hlast⟩, ?_⟩
  have hmany :=
    (runQueue_accounted Sample.engine Sample.answer 2305843009213693952 Sample.items 0).1
  exact (hmany Sample.moves).mpr (by decide)

end ReleaseTracker
