import ReleaseTracker.Proofs.Work.QueueAccounts

/-! A queue with a single permit. At most one job works at a time, so the jobs from the first to the
last, and after them the items that are not dispatched yet, are what would be done one after another
(`Queue.ahead`). No step changes what comes of that, and when the loop returns nothing is left of it
but the results. -/

namespace ReleaseTracker

/-! Questions -/

namespace Program
variable {I : Interface} {ε α β σ : Type}

def questions (answer : Handler I ε σ) : Program I ε α → σ → List I.Query
  | .done _, _ => []
  | .stop _, _ => []
  | .ask query next, s =>
    query :: match answer query s with
      | (.ok a, s') => (next a).questions answer s'
      | (.error _, _) => []

def noting (answer : Handler I ε σ) : Handler I ε (σ × List I.Query) :=
  fun query (s, asked) =>
    let (result, s) := answer query s
    (result, (s, asked ++ [query]))

theorem run_noting (answer : Handler I ε σ) (p : Program I ε α) (s : σ) (asked : List I.Query) :
    p.run (noting answer) (s, asked) =
      ((p.run answer s).1, ((p.run answer s).2, asked ++ p.questions answer s)) := by
  induction p generalizing s asked with
  | done a => simp [run, questions]
  | stop e => simp [run, questions]
  | ask query next ih =>
    simp only [run, questions, noting]
    rcases answer query s with ⟨fault | a, s'⟩
    · rfl
    · have hrest := ih a s' (asked ++ [query])
      rwa [List.append_assoc, List.singleton_append] at hrest

end Program

/-! The direct way -/

namespace Engine
variable {σ : Type}

def handleAll (engine : Engine) (answer : Handler Task Fault σ) :
    List WorkItem → σ → List (Except Fault Outcome) × σ
  | [], s => ([], s)
  | item :: items, s =>
    let (result, s) := (engine.handle item).run answer s
    let (results, s) := engine.handleAll answer items s
    (result :: results, s)

def questionsOfAll (engine : Engine) (answer : Handler Task Fault σ) :
    List WorkItem → σ → List Task.Query
  | [], _ => []
  | item :: items, s =>
    (engine.handle item).questions answer s ++
      engine.questionsOfAll answer items ((engine.handle item).run answer s).2

theorem handleAll_noting (engine : Engine) (answer : Handler Task Fault σ) (items : List WorkItem)
    (s : σ) (asked : List Task.Query) :
    engine.handleAll (Program.noting answer) items (s, asked) =
      ((engine.handleAll answer items s).1,
        ((engine.handleAll answer items s).2, asked ++ engine.questionsOfAll answer items s)) := by
  induction items generalizing s asked with
  | nil => simp [handleAll, questionsOfAll]
  | cons item items ih =>
    have hitem := (engine.handle item).run_noting answer s asked
    simp only [handleAll, questionsOfAll]
    rw [hitem, ih, List.append_assoc]

end Engine

variable {σ : Type} {engine : Engine} {answer : Handler Task Fault σ}

def Job.results (answer : Handler Task Fault σ) : List Job → σ → List (Except Fault Outcome) × σ
  | [], s => ([], s)
  | ⟨_, .working rest⟩ :: jobs, s =>
    let (result, s) := rest.run answer s
    let (results, s) := results answer jobs s
    (result :: results, s)
  | ⟨_, .ended result⟩ :: jobs, s | ⟨_, .recorded result⟩ :: jobs, s =>
    let (results, s) := results answer jobs s
    (result :: results, s)

namespace Job

theorem results_job (items : List WorkItem) (s : σ) :
    results answer (items.map engine.job) s = engine.handleAll answer items s := by
  induction items generalizing s with
  | nil => rfl
  | cons item items ih =>
    simp only [List.map_cons, Engine.job, results, Engine.handleAll]
    rw [← ih]

theorem results_append (before after : List Job) (s : σ) : results answer (before ++ after) s =
    ((results answer before s).1 ++ (results answer after (results answer before s).2).1,
      (results answer after (results answer before s).2).2) := by
  induction before generalizing s with
  | nil => rfl
  | cons job before ih =>
    obtain ⟨item, progress⟩ := job
    cases progress with
    | working rest => simp only [List.cons_append, results, ih]
    | ended result | recorded result => simp only [List.cons_append, results, ih]

theorem results_idle {jobs : List Job} (hidle : jobs.countP Job.isWorking = 0) :
    ∃ results', ∀ s, results answer jobs s = (results', s) := by
  induction jobs with
  | nil => exact ⟨[], fun s => rfl⟩
  | cons job jobs ih =>
    rw [List.countP_cons] at hidle
    obtain ⟨results', hresults⟩ := ih (by omega)
    obtain ⟨item, progress⟩ := job
    cases progress with
    | working rest => simp [isWorking] at hidle
    | ended result | recorded result =>
      refine ⟨result :: results', fun s => ?_⟩
      simp only [results, hresults]

variable {before after : List Job} {item : WorkItem} {progress progress' : Progress} {s s' : σ}

theorem results_turn (hidle : before.countP Job.isWorking = 0)
    (h : results answer [⟨item, progress'⟩] s' = results answer [⟨item, progress⟩] s) :
    results answer (before ++ ⟨item, progress'⟩ :: after) s' =
      results answer (before ++ ⟨item, progress⟩ :: after) s := by
  obtain ⟨first, hfirst⟩ : ∃ first, ∀ s, results answer before s = (first, s) :=
    results_idle hidle
  rw [results_append, results_append before, hfirst, hfirst, ← List.singleton_append,
    results_append, h, ← results_append, List.singleton_append]

theorem results_of_result? {rest : Work Outcome} {result : Except Fault Outcome}
    (h : rest.result? = some result) (s : σ) :
    results answer [⟨item, .ended result⟩] s = results answer [⟨item, .working rest⟩] s := by
  cases rest with
  | done outcome =>
    obtain rfl := Option.some.inj h
    rfl
  | stop fault =>
    obtain rfl := Option.some.inj h
    rfl
  | ask => cases h

theorem results_recorded {jobs : List Job} (h : ∀ job ∈ jobs, job.isRecorded) (s : σ) :
    results answer jobs s = ((jobs.filterMap Job.finished?).map (·.result), s) := by
  induction jobs with
  | nil => rfl
  | cons job jobs ih =>
    obtain ⟨hjob, hjobs⟩ := List.forall_mem_cons.mp h
    obtain ⟨item, progress⟩ := job
    cases progress with
    | recorded result =>
      simp only [results, ih hjobs]
      rfl
    | working rest | ended result => cases hjob

end Job

namespace Queue
variable {state state' : Queue × σ} {concurrency : Nat} {items : List WorkItem}

def ahead (engine : Engine) (queue : Queue) : List Job :=
  queue.jobs ++ (queue.phase.held ++ queue.waiting).map engine.job

theorem idle_split {waiting : List WorkItem} {phase : Phase} {permits : Nat}
    {before after : List Job} {item : WorkItem} {rest : Work Outcome} {stats : QueueStats}
    (h : working ⟨waiting, phase, permits, before ++ ⟨item, .working rest⟩ :: after, stats⟩ ≤ 1) :
    before.countP Job.isWorking = 0 := by
  rw [working_split, List.countP_append] at h
  simp only [Job.isWorking, if_true] at h
  omega

theorem Step.results_ahead (hstep : Step engine answer state state') (h : state.1.working ≤ 1) :
    Job.results answer (state'.1.ahead engine) state'.2 =
      Job.results answer (state.1.ahead engine) state.2 := by
  cases hstep with
  | receive | close | permit | resume | leave => rfl
  | dispatch item waiting permits jobs =>
    have hsame : (jobs ++ [engine.job item]) ++ waiting.map engine.job =
        jobs ++ (item :: waiting).map engine.job := List.append_assoc ..
    exact congrArg (Job.results answer · _) hsame
  | turn waiting phase permits before after item query next stats s =>
    have hjob := (Program.ask (I := Task) query next).run_step answer s
    simp only [ahead, List.append_assoc, List.cons_append]
    refine Job.results_turn (idle_split h) ?_
    simp only [Job.results, hjob]
  | release waiting phase permits before after item stats s hresult =>
    simp only [ahead, List.append_assoc, List.cons_append]
    exact Job.results_turn (idle_split h) (Job.results_of_result? hresult s)
  | record waiting permits before after item result stats s hrecords =>
    simp only [ahead, List.append_assoc, List.cons_append]
    rw [Job.results_append, Job.results_append before]
    rfl

theorem Reaches.results_ahead (hreaches : Reaches engine answer state state')
    (h : state.1.Sound engine answer concurrency items) (hone : concurrency ≤ 1) :
    Job.results answer (state'.1.ahead engine) state'.2 =
      Job.results answer (state.1.ahead engine) state.2 := by
  induction hreaches with
  | refl => rfl
  | tail hbefore hstep ih =>
    have hpermitted := (Reaches.sound hbefore h).permitted
    have hworking := hstep.results_ahead (by omega)
    exact hworking.trans ih

theorem results_of_returned {queue : Queue} {s s' : σ} (hone : concurrency ≤ 1)
    (hreaches : Reaches engine answer (start concurrency items, s) (queue, s'))
    (hphase : queue.phase = .returned) :
    (queue.finished.map (·.result), s') = engine.handleAll answer items s := by
  have hstart := sound_start engine answer concurrency items
  have hsound : queue.Sound engine answer concurrency items := hreaches.sound hstart
  have hahead := hreaches.results_ahead hstart hone
  have hnothing : queue.ahead engine = queue.jobs := by
    have hwaiting := hsound.closed (by simp [hphase, Phase.stepsLeft])
    simp [ahead, hphase, hwaiting, Phase.held]
  rw [hnothing, Job.results_recorded (hsound.drained hphase)] at hahead
  exact hahead.trans (Job.results_job items s)

end Queue

open Queue

/-- With at most one permit, a queue is the direct way: whatever happens when, the same questions
are asked in the same order, with the same answers, and the statistics are the tally of the same
results. -/
theorem runQueue_alone (engine : Engine) (answer : Handler Task Fault σ) {concurrency : Nat}
    (hone : concurrency ≤ 1) (items : List WorkItem) (s : σ) :
    (∀ queue s' asked,
      Reaches engine (Program.noting answer) (start concurrency items, (s, []))
        (queue, (s', asked)) → queue.phase = .returned →
      asked = engine.questionsOfAll answer items s ∧
      s' = (engine.handleAll answer items s).2 ∧
      queue.finished.map (·.item) = items ∧
      queue.finished.map (·.result) = (engine.handleAll answer items s).1 ∧
      queue.stats = .tally (engine.handleAll answer items s).1) ∧
    ∀ moves, engine.runQueue? answer concurrency moves items s =
      some (.tally (engine.handleAll answer items s).1, (engine.handleAll answer items s).2) := by
  constructor
  · intro queue s' asked hreaches hphase
    have hsound : queue.Sound engine (Program.noting answer) concurrency items :=
      hreaches.sound (sound_start ..)
    have hresults := results_of_returned hone hreaches hphase
    rw [engine.handleAll_noting answer items s [], List.nil_append] at hresults
    obtain ⟨hfinished, hrest⟩ := Prod.mk.inj hresults
    obtain ⟨hstate, hasked⟩ := Prod.mk.inj hrest
    refine ⟨hasked, hstate, (hsound.workedOff hphase).complete, hfinished, ?_⟩
    rw [hsound.tallied, hfinished]
  · intro moves
    have hstart : start? concurrency items = some (start concurrency items) := by
      have hgreat : 1 ≤ greatestConcurrency := by decide
      exact if_neg (by omega)
    obtain ⟨last, s', hreaches, hphase, hrun⟩ := runQueue?_returns engine answer hstart moves s
    have hsound : last.Sound engine answer concurrency items := hreaches.sound (sound_start ..)
    have hresults := results_of_returned hone hreaches hphase
    rw [hrun, hsound.tallied, ← hresults]

theorem runQueue_alone_crashing :
    Sample.engine.runQueue? Sample.answer 0 Sample.moves Sample.items 0 =
      some (⟨0, 0, 2, 1⟩, 3) ∧
    ∃ queue s' asked, Reaches Sample.engine (Program.noting Sample.answer)
        (start 0 Sample.items, (0, [])) (queue, (s', asked)) ∧
      asked = List.replicate 3 (.store .userCredentials) ∧
      queue.finished.map (·.result) = [.ok (.aborted .noClient), .error .crashed,
        .ok (.aborted .noClient)] := by
  obtain ⟨hreached, hruns⟩ :=
    runQueue_alone Sample.engine Sample.answer (Nat.zero_le 1) Sample.items 0
  have hdirect : Sample.engine.handleAll Sample.answer Sample.items 0 =
      ([.ok (.aborted .noClient), .error .crashed, .ok (.aborted .noClient)], 3) := by
    decide +kernel
  have hquestions : Sample.engine.questionsOfAll Sample.answer Sample.items 0 =
      List.replicate 3 (.store .userCredentials) := by decide +kernel
  constructor
  · have hrun := hruns Sample.moves
    rwa [hdirect] at hrun
  · have hstart : start? 0 Sample.items = some (start 0 Sample.items) := if_neg (by decide)
    obtain ⟨last, ⟨s', asked⟩, hreaches, hphase, -⟩ :=
      runQueue?_returns Sample.engine (Program.noting Sample.answer) hstart Sample.moves (0, [])
    obtain ⟨hasked, -, -, hresults, -⟩ := hreached last s' asked hreaches hphase
    rw [hdirect] at hresults
    exact ⟨last, s', asked, hreaches, hasked.trans hquestions, hresults⟩

end ReleaseTracker
