import ReleaseTracker.Proofs.Work.Workshop

/-! A family of units of work over one store. They take turns in any order, a question at a time.
What each unit knows of the tables goes on to hold, if its own turns establish it and the turns of
the others do not break it (`Crew.Undisturbed`). -/

namespace ReleaseTracker
open Program

structure Crew (ι : Type) where
  tables : Tables
  units : ι → Course

namespace Crew
variable {ι : Type} [DecidableEq ι]

def start (t : Tables) (work : ι → Work Outcome) : Crew ι := ⟨t, fun i => ⟨[], work i⟩⟩

def move (crew : Crew ι) (i : ι) (course : Course) (t : Tables) : Crew ι :=
  ⟨t, Function.update crew.units i course⟩

theorem forall_units_move_iff {crew : Crew ι} {i : ι} {course : Course} {t : Tables}
    (holds : ι → Course → Prop) : (∀ j, holds j ((crew.move i course t).units j)) ↔
      holds i course ∧ ∀ j, j ≠ i → holds j (crew.units j) :=
  Function.forall_update_iff crew.units holds

inductive Step (conduct : Conduct Task Tables) (crew : Crew ι) : Crew ι → Prop
  | turn {i : ι} {log : Log} {query : Task.Query} {next : Task.Answer query → Work Outcome}
      {answer : Task.Answer query} {t' : Tables}
      (under : crew.units i = ⟨log, .ask (I := Task) query next⟩)
      (answered : conduct crew.tables query answer t') :
      Step conduct crew (crew.move i ⟨log ++ [⟨query, answer⟩], next answer⟩ t')

abbrev Reaches (conduct : Conduct Task Tables) : Crew ι → Crew ι → Prop :=
  Relation.ReflTransGen (Step conduct)

variable {conduct conduct' : Conduct Task Tables} {crew crew' : Crew ι}

theorem Step.mono (h : conduct ≤ conduct') (hstep : Step conduct crew crew') :
    Step conduct' crew crew' := by
  obtain ⟨hunder, hanswered⟩ := hstep
  exact .turn hunder (h _ _ _ _ hanswered)

theorem Reaches.mono (h : conduct ≤ conduct') (hreaches : Reaches conduct crew crew') :
    Reaches conduct' crew crew' :=
  Relation.ReflTransGen.mono (fun _ _ => Step.mono h) _ _ hreaches

theorem Reaches.conducted {t : Tables} {work : ι → Work Outcome}
    (hreaches : Reaches conduct (start t work) crew) : ∀ i, ∀ event ∈ (crew.units i).log,
      ∃ before after, conduct before event.query event.answer after := by
  let answered (event : Answered Task) : Prop :=
    ∃ before after, conduct before event.query event.answer after
  show ∀ i, ∀ event ∈ (crew.units i).log, answered event
  induction hreaches with
  | refl => exact fun _ => List.forall_mem_nil _
  | tail _ hstep ih =>
    obtain @⟨i, log, query, next, answer, t', hunder, hanswered⟩ := hstep
    have hlog := ih i
    rw [hunder] at hlog
    refine (forall_units_move_iff fun _ unit => ∀ event ∈ unit.log, answered event).mpr
      ⟨List.forall_mem_append.mpr ⟨hlog, ?_⟩, fun j _ => ih j⟩
    exact List.forall_mem_singleton.mpr ⟨_, _, hanswered⟩

theorem Reaches.leaves {t : Tables} {work : ι → Work Outcome}
    (hreaches : Reaches conduct (start t work) crew) :
    ∀ i, (work i).Leaves (crew.units i).log (crew.units i).rest := by
  induction hreaches with
  | refl => exact fun i => .nothing (work i)
  | tail _ hstep ih =>
    obtain @⟨i, log, query, next, answer, t', hunder, -⟩ := hstep
    have hleaves := ih i
    rw [hunder] at hleaves
    exact (forall_units_move_iff fun j unit => (work j).Leaves unit.log unit.rest).mpr
      ⟨hleaves.snoc answer, fun j _ => ih j⟩

/-! Contracts -/

section Contract
variable {may : (query : Task.Query) → Task.Answer query → Prop}
  {asks : ι → Log → Task.Query → Prop}
  {ends : ι → Log → Except Fault Outcome → Prop} {good : ι → Log → Prop} {holds : Tables → Prop}
  {knows : ι → Tables → Log → Prop}

def Sound (may : (query : Task.Query) → Task.Answer query → Prop)
    (asks : ι → Log → Task.Query → Prop) (ends : ι → Log → Except Fault Outcome → Prop)
    (crew : Crew ι) : Prop :=
  ∀ i, (crew.units i).rest.Ensures may (asks i) (ends i) (crew.units i).log

theorem Step.sound (hstep : Step conduct crew crew')
    (hmay : ∀ t query answer t', conduct t query answer t' → may query answer)
    (h : crew.Sound may asks ends) : crew'.Sound may asks ends := by
  obtain @⟨i, log, query, next, answer, t', hunder, hanswered⟩ := hstep
  have hcontract := h i
  rw [hunder] at hcontract
  refine (forall_units_move_iff fun j unit => unit.rest.Ensures may (asks j) (ends j) unit.log).mpr
    ⟨?_, fun j _ => h j⟩
  exact hcontract.2 answer (hmay _ _ _ _ hanswered)

theorem Reaches.sound (hreaches : Reaches conduct crew crew')
    (hmay : ∀ t query answer t', conduct t query answer t' → may query answer)
    (h : crew.Sound may asks ends) : crew'.Sound may asks ends := by
  induction hreaches with
  | refl => exact h
  | tail _ hstep ih => exact hstep.sound hmay ih

/-- The turns of a unit keep what holds of the tables and establish what the unit knows of them, and
no other unit stops knowing what it knows. -/
structure Undisturbed (conduct : Conduct Task Tables) (asks : ι → Log → Task.Query → Prop)
    (good : ι → Log → Prop) (holds : Tables → Prop) (knows : ι → Tables → Log → Prop) : Prop where
  own : ∀ {i t log query answer t'}, asks i log query → good i (log ++ [⟨query, answer⟩]) →
    holds t → knows i t log → conduct t query answer t' →
      holds t' ∧ knows i t' (log ++ [⟨query, answer⟩])
  others : ∀ {i j t log log' query answer t'}, i ≠ j → asks j log' query →
    good j (log' ++ [⟨query, answer⟩]) → holds t → knows j t log' → knows i t log →
      conduct t query answer t' → knows i t' log

/-- In a crew that is undisturbed everybody knows the tables as they are, as long as all logs are
good. -/
theorem Undisturbed.reaches (h : Undisturbed conduct asks good holds knows)
    (hmay : ∀ t query answer t', conduct t query answer t' → may query answer)
    (hgood : ∀ i log event, good i (log ++ [event]) → good i log)
    (hsound : crew.Sound may asks ends) (hholds : holds crew.tables)
    (hknows : ∀ i, knows i crew.tables (crew.units i).log)
    (hreaches : Reaches conduct crew crew') (hall : ∀ i, good i (crew'.units i).log) :
    holds crew'.tables ∧ ∀ i, knows i crew'.tables (crew'.units i).log := by
  induction hreaches with
  | refl => exact ⟨hholds, hknows⟩
  | @tail mid _ hbefore hstep ih =>
    have hcontract := Reaches.sound hbefore hmay hsound
    obtain @⟨i, log, query, next, answer, t', hunder, hanswered⟩ := hstep
    obtain ⟨hturn, hrest⟩ := (forall_units_move_iff fun j unit => good j unit.log).mp hall
    have hmid : ∀ j, good j (mid.units j).log := by
      intro j
      by_cases hj : j = i
      · subst hj
        rw [hunder]
        exact hgood j log _ hturn
      · exact hrest j hj
    obtain ⟨hholds', hknows'⟩ := ih hmid
    have hasks : asks i log query := by
      have hi := hcontract i
      rw [hunder] at hi
      exact hi.1
    -- the unit whose turn it was has learnt its answer, and the others know what they knew
    have hi : knows i mid.tables log := by simpa only [hunder] using hknows' i
    obtain ⟨hafter, hlearnt⟩ := h.own hasks hturn hholds' hi hanswered
    refine ⟨hafter, (forall_units_move_iff fun j unit => knows j t' unit.log).mpr
      ⟨hlearnt, fun j hj => ?_⟩⟩
    exact h.others hj hasks hturn hholds' hi (hknows' j) hanswered

end Contract

/-! Schedules -/

def turn (answer : Handler Task Fault Tables) (crew : Crew ι) (i : ι) : Crew ι :=
  match (crew.units i).rest with
  | .ask query next =>
    match answer query crew.tables with
    | (.ok a, t) => crew.move i ⟨(crew.units i).log ++ [⟨query, a⟩], next a⟩ t
    | (.error _, _) => crew
  | _ => crew

def play (answer : Handler Task Fault Tables) (crew : Crew ι) (schedule : List ι) : Crew ι :=
  schedule.foldl (turn answer) crew

theorem reaches_turn (answer : Handler Task Fault Tables) (crew : Crew ι) (i : ι) :
    Reaches (fun t query a t' => answer query t = (.ok a, t')) crew (crew.turn answer i) := by
  unfold turn
  rcases hunit : crew.units i with ⟨log, rest⟩
  cases rest with
  | done | stop => exact .refl
  | ask query next =>
    dsimp only
    rcases hanswer : answer query crew.tables with ⟨_ | a, t⟩
    · exact .refl
    · exact .single (.turn hunit hanswer)

theorem reaches_play (answer : Handler Task Fault Tables) (crew : Crew ι) (schedule : List ι) :
    Reaches (fun t query a t' => answer query t = (.ok a, t')) crew
      (crew.play answer schedule) := by
  induction schedule generalizing crew with
  | nil => exact .refl
  | cons i rest ih => exact (reaches_turn answer crew i).trans (ih _)

theorem reaches_steady (facts : GitHub.Facts) (now : Instant) (crew : Crew ι) (schedule : List ι) :
    Reaches StoreRule.reliable.conduct crew
      (crew.play (Surroundings.steady facts now).answer schedule) := by
  refine (reaches_play _ crew schedule).mono fun t query answer t' hanswer => ?_
  obtain ⟨a, s, hanswer', hconduct⟩ := (Surroundings.steady facts now).answers query t
  rw [hanswer] at hanswer'
  cases hanswer'
  exact hconduct

end Crew
end ReleaseTracker
