import Mathlib.Logic.Function.Basic
import Mathlib.Logic.Relation
import ReleaseTracker.Proofs.Work.Conformance

/-! Units of work that run at the same time over one store, at most one for each item. They take
turns in any order, a question at a time. A unit begins when no other for its item is under way, and
leaves at any time, also before its end. -/

namespace ReleaseTracker
open Program

structure Course where
  log : Log
  rest : Work Outcome

structure Workshop where
  tables : Tables
  units : WorkItem → Option Course

namespace Workshop

def vacant (t : Tables) : Workshop := ⟨t, fun _ => none⟩

def place (w : Workshop) (item : WorkItem) (unit? : Option Course) : Workshop :=
  { w with units := Function.update w.units item unit? }

inductive Step (rule : StoreRule) (w : Workshop) : Workshop → Prop
  | begin (engine : Engine) (item : WorkItem) (free : w.units item = none) :
      Step rule w (w.place item (some ⟨[], engine.handle item⟩))
  | turn {item : WorkItem} {log : Log} {query : Task.Query}
      {next : Task.Answer query → Work Outcome} {answer : Task.Answer query} {t' : Tables}
      (under : w.units item = some ⟨log, .ask (I := Task) query next⟩)
      (answered : rule.conduct w.tables query answer t') :
      Step rule w
        (place { w with tables := t' } item (some ⟨log ++ [⟨query, answer⟩], next answer⟩))
  | leave (item : WorkItem) : Step rule w (w.place item none)

abbrev Reaches (rule : StoreRule) : Workshop → Workshop → Prop :=
  Relation.ReflTransGen (Step rule)

variable {w : Workshop} {item other : WorkItem} {unit? : Option Course}

@[simp] theorem place_self : (w.place item unit?).units item = unit? := by
  simp [place]

theorem of_place {course : Course} (h : (w.place other unit?).units item = some course) :
    item = other ∧ unit? = some course ∨ item ≠ other ∧ w.units item = some course := by
  by_cases hsame : item = other
  · subst hsame
    rw [place_self] at h
    exact .inl ⟨rfl, h⟩
  · refine .inr ⟨hsame, ?_⟩
    simpa [place, hsame] using h

theorem place_eq_self (h : w.units item = unit?) : w.place item unit? = w := by
  simp [place, ← h]

@[simp] theorem place_place (later? : Option Course) :
    (w.place item unit?).place item later? = w.place item later? := by
  simp [place]

def ended : Except Fault Outcome → Work Outcome
  | .ok outcome => .done outcome
  | .error fault => .stop fault

theorem reaches_of_runs {rule : StoreRule} {rest : Work Outcome} {log more : Log} {t t' : Tables}
    {units : WorkItem → Option Course} {result : Except Fault Outcome}
    (hunit : units item = some ⟨log, rest⟩) (hrun : rest.Runs rule.conduct t more result t') :
    Reaches rule ⟨t, units⟩ (place ⟨t', units⟩ item (some ⟨log ++ more, ended result⟩)) := by
  induction hrun generalizing units log with
  | done outcome t => rw [List.append_nil, ended, place_eq_self hunit]
  | stop fault t => rw [List.append_nil, ended, place_eq_self hunit]
  | @ask query next answer t mid t' more result answered _ ih =>
    let after := place ⟨mid, units⟩ item (some ⟨log ++ [⟨query, answer⟩], next answer⟩)
    have hturn : Step rule ⟨t, units⟩ after := .turn hunit answered
    have hafter : after.units item = some ⟨log ++ [⟨query, answer⟩], next answer⟩ := place_self
    have hrest := ih hafter
    rw [List.append_assoc] at hrest
    exact .head hturn (by simpa [after, place] using hrest)

section Alone
variable {rule : StoreRule} {σ : Type}

theorem reaches_handled (w : Surroundings rule σ) (engine : Engine) (item : WorkItem) (s : σ) :
    Reaches rule (vacant (w.tables s))
      ((vacant (w.tables (w.run (engine.handle item) s).2)).place item
        (some ⟨w.transcript (engine.handle item) s, ended (w.run (engine.handle item) s).1⟩)) := by
  let begun := (vacant (w.tables s)).place item (some ⟨[], engine.handle item⟩)
  have hbegin : Step rule (vacant (w.tables s)) begun := .begin engine item rfl
  have hunit : begun.units item = some ⟨[], engine.handle item⟩ := place_self
  have hrest := reaches_of_runs hunit (w.runs (engine.handle item) s)
  exact .head hbegin (by simpa [begun, place, vacant] using hrest)

theorem reaches_vacant (w : Surroundings rule σ) (engine : Engine) (item : WorkItem) (s : σ) :
    Reaches rule (vacant (w.tables s)) (vacant (w.tables (w.run (engine.handle item) s).2)) := by
  have hempty (t : Tables) : (vacant t).place item none = vacant t := place_eq_self rfl
  refine (reaches_handled w engine item s).trans (.single ?_)
  have hleave : Step rule ((vacant (w.tables (w.run (engine.handle item) s).2)).place item
      (some ⟨w.transcript (engine.handle item) s, ended (w.run (engine.handle item) s).1⟩)) _ :=
    .leave item
  rwa [place_place, hempty] at hleave

end Alone

end Workshop
end ReleaseTracker
