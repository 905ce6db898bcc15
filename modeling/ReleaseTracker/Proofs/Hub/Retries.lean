import Mathlib.Order.Bounds.Basic
import ReleaseTracker.Hub.Retry
import ReleaseTracker.Proofs.Program.Runs

/-! How often an operation is attempted. Attempts go on until one is conclusive or none is left, and
the last one is what the operation comes to. -/

namespace ReleaseTracker
open Program

namespace RetryPolicy
variable {ε α φ σ : Type} {policy : RetryPolicy} {worthRetrying : ε → Bool}

def Conclusive (worthRetrying : ε → Bool) : Except ε α → Prop
  | .ok _ => True
  | .error e => worthRetrying e = false

def outcome? : Answered (Repeating ε α) → Option (Except ε α)
  | ⟨.attempt, outcome⟩ => some outcome
  | ⟨.pause _, _⟩ => none

def outcomes (log : List (Answered (Repeating ε α))) : List (Except ε α) := log.filterMap outcome?

/-- Attempts up to the last one. The others were not conclusive, and the last one either is or could
not be repeated any more. -/
structure Tried (worthRetrying : ε → Bool) (retries : Nat) (before : List (Except ε α))
    (last : Except ε α) : Prop where
  bounded : before.length ≤ retries
  inconclusive : ∀ outcome ∈ before, ¬ Conclusive worthRetrying outcome
  ended : before.length = retries ∨ Conclusive worthRetrying last

variable {retries : Nat} {before : List (Except ε α)} {outcome last : Except ε α}

theorem tried_first (h : retries = 0 ∨ Conclusive worthRetrying last) :
    Tried worthRetrying retries [] last where
  bounded := Nat.zero_le retries
  inconclusive := List.forall_mem_nil _
  ended := h.imp_left Eq.symm

theorem Tried.again (h : Tried worthRetrying retries before last)
    (houtcome : ¬ Conclusive worthRetrying outcome) :
    Tried worthRetrying (retries + 1) (outcome :: before) last where
  bounded := Nat.succ_le_succ h.bounded
  inconclusive := List.forall_mem_cons.mpr ⟨houtcome, h.inconclusive⟩
  ended := h.ended.imp_left (congrArg (· + 1))

theorem attempt_runs {conduct : Conduct (Repeating ε α) σ} {delay : Nat} {s s' : σ}
    {log : List (Answered (Repeating ε α))} {result : Except φ (Except ε α)}
    (hrun : (policy.attempt worthRetrying retries delay).Runs conduct s log result s') :
    ∃ before last, outcomes log = before ++ [last] ∧ result = .ok last ∧
      Tried worthRetrying retries before last := by
  -- each inconclusive attempt spends one of the repetitions
  induction retries generalizing delay s log with
  | zero =>
    obtain ⟨last, mid, rest, -, hrest, rfl⟩ := runs_ask_iff.mp hrun
    obtain ⟨rfl, rfl, -⟩ := runs_done_iff.mp hrest
    exact ⟨[], last, rfl, rfl, tried_first (.inl rfl)⟩
  | succ retries ih =>
    obtain ⟨outcome, mid, rest, -, hrest, rfl⟩ := runs_ask_iff.mp hrun
    rcases outcome with e | a
    · dsimp only at hrest
      split_ifs at hrest with hretry
      · obtain ⟨_, _, later, -, hlater, rfl⟩ := runs_ask_iff.mp hrest
        obtain ⟨before, last, houtcomes, hresult, htried⟩ := ih hlater
        have hnot : ¬ Conclusive worthRetrying (.error e : Except ε α) := by
          simp [Conclusive, hretry]
        exact ⟨.error e :: before, last, congrArg (Except.error e :: ·) houtcomes, hresult,
          htried.again hnot⟩
      · obtain ⟨rfl, rfl, -⟩ := runs_done_iff.mp hrest
        exact ⟨[], .error e, rfl, rfl, tried_first (.inr (Bool.eq_false_iff.mpr hretry))⟩
    · obtain ⟨rfl, rfl, -⟩ := runs_done_iff.mp hrest
      exact ⟨[], .ok a, rfl, rfl, tried_first (.inr trivial)⟩

/-! Given what each attempt will come to -/

def foretold : Conduct (Repeating ε α) (Nat → Except ε α) := fun coming query answer coming' =>
  match query, answer with
  | .attempt, outcome => outcome = coming 0 ∧ coming' = fun n => coming (n + 1)
  | .pause _, _ => coming' = coming

structure Foretelling (ε α φ σ : Type) where
  answer : Handler (Repeating ε α) φ σ
  coming : σ → Nat → Except ε α
  answers : ∀ q s, ∃ a s', answer q s = (.ok a, s') ∧ foretold (coming s) q a (coming s')

theorem outcomes_eq {β : Type} {p : Program (Repeating ε α) φ β} {coming coming' : Nat → Except ε α}
    {log : List (Answered (Repeating ε α))} {result : Except φ β}
    (hrun : p.Runs foretold coming log result coming') :
    outcomes log = (List.range (outcomes log).length).map coming := by
  induction hrun with
  | done | stop => rfl
  | @ask query _ answer coming mid _ log _ answered _ ih =>
    cases query with
    | attempt =>
      obtain ⟨rfl, rfl⟩ := answered
      have hlog : outcomes (⟨.attempt, coming 0⟩ :: log) = coming 0 :: outcomes log := rfl
      rw [hlog, List.length_cons, List.range_succ_eq_map, List.map_cons, List.map_map]
      exact congrArg (coming 0 :: ·) ih
    | pause delay =>
      obtain rfl : mid = coming := answered
      exact ih

theorem isLeast_of_tried {coming : Nat → Except ε α}
    (hbefore : before = (List.range before.length).map coming)
    (h : Tried worthRetrying retries before (coming before.length)) :
    IsLeast {n | n = retries + 1 ∨ ∃ i, n = i + 1 ∧ Conclusive worthRetrying (coming i)}
      (before.length + 1) := by
  refine ⟨h.ended.imp (congrArg (· + 1)) fun hconclusive => ⟨_, rfl, hconclusive⟩, ?_⟩
  rintro n (rfl | ⟨i, rfl, hconclusive⟩)
  · exact Nat.succ_le_succ h.bounded
  · by_contra hearly
    have hi : i < before.length := by omega
    refine h.inconclusive (coming i) ?_ hconclusive
    rw [hbefore]
    exact List.mem_map_of_mem (List.mem_range.mpr hi)

theorem repeating_foretold (policy : RetryPolicy) (worthRetrying : ε → Bool)
    (w : Foretelling ε α φ σ) (s : σ) :
    ∃ k, IsLeast {n | n = policy.retries + 1 ∨
        ∃ i, n = i + 1 ∧ Conclusive worthRetrying (w.coming s i)} k ∧
      outcomes ((policy.repeating worthRetrying).transcript w.answer s) =
        (List.range k).map (w.coming s) ∧
      ((policy.repeating worthRetrying).run w.answer s).1 = .ok (w.coming s (k - 1)) := by
  have hrun := runs_run w.answers (policy.repeating worthRetrying) s
  obtain ⟨before, last, houtcomes, hresult, htried⟩ := attempt_runs hrun
  have hall := outcomes_eq hrun
  rw [houtcomes, List.length_append, List.length_singleton, List.range_succ,
    List.map_append] at hall
  obtain ⟨hbefore, hlast⟩ := List.append_inj' hall rfl
  obtain rfl : last = w.coming s before.length := by simpa using hlast
  refine ⟨_, isLeast_of_tried hbefore htried, ?_, hresult⟩
  rw [houtcomes, List.range_succ, List.map_append, ← hbefore]
  rfl

end RetryPolicy
end ReleaseTracker
