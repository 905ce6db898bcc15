import Mathlib.Order.Basic
import Mathlib.Tactic.Common
import ReleaseTracker.Program

/-! Runs of a program as a relation: the answers that it got, in order, between the state where it
starts and the state where it ends. A handler that answers every question gives the run of each
program (`runs_run`), so what holds of all runs holds under every handler. -/

namespace ReleaseTracker

structure Answered (I : Interface) where
  query : I.Query
  answer : I.Answer query

abbrev Conduct (I : Interface) (σ : Type) := σ → (query : I.Query) → I.Answer query → σ → Prop

namespace Program
variable {I : Interface} {ε α β σ τ : Type} {conduct : Conduct I σ}

inductive Runs (conduct : Conduct I σ) :
    Program I ε α → σ → List (Answered I) → Except ε α → σ → Prop
  | done (a : α) (s : σ) : Runs conduct (.done a) s [] (.ok a) s
  | stop (e : ε) (s : σ) : Runs conduct (.stop e) s [] (.error e) s
  | ask {query : I.Query} {next : I.Answer query → Program I ε α} {answer : I.Answer query}
      {s s' s'' : σ} {log : List (Answered I)} {result : Except ε α}
      (answered : conduct s query answer s') (rest : Runs conduct (next answer) s' log result s'') :
      Runs conduct (.ask query next) s (⟨query, answer⟩ :: log) result s''

variable {s s' : σ} {log : List (Answered I)}

@[simp] theorem runs_done_iff {a : α} {result : Except ε α} :
    Runs conduct (.done a) s log result s' ↔ log = [] ∧ result = .ok a ∧ s' = s := by
  constructor
  · rintro ⟨⟩
    exact ⟨rfl, rfl, rfl⟩
  · rintro ⟨rfl, rfl, rfl⟩
    exact .done a _

theorem runs_done_ok_iff {a b : α} :
    Runs conduct (.done a : Program I ε α) s log (.ok b) s' ↔ log = [] ∧ b = a ∧ s' = s := by
  rw [runs_done_iff, Except.ok.injEq]

@[simp] theorem runs_stop_iff {e : ε} {result : Except ε α} :
    Runs conduct (.stop e) s log result s' ↔ log = [] ∧ result = .error e ∧ s' = s := by
  constructor
  · rintro ⟨⟩
    exact ⟨rfl, rfl, rfl⟩
  · rintro ⟨rfl, rfl, rfl⟩
    exact .stop e _

theorem runs_ask_iff {query : I.Query} {next : I.Answer query → Program I ε α}
    {result : Except ε α} :
    Runs conduct (.ask query next) s log result s' ↔ ∃ answer mid rest,
      conduct s query answer mid ∧ Runs conduct (next answer) mid rest result s' ∧
        log = ⟨query, answer⟩ :: rest := by
  constructor
  · rintro ⟨⟩
    exact ⟨_, _, _, ‹_›, ‹_›, rfl⟩
  · rintro ⟨answer, mid, rest, h, hrest, rfl⟩
    exact .ask h hrest

theorem runs_bind_iff {p : Program I ε α} {f : α → Program I ε β} {result : Except ε β} :
    Runs conduct (p.bind f) s log result s' ↔
      (∃ e, Runs conduct p s log (.error e) s' ∧ result = .error e) ∨
        ∃ a mid first rest, Runs conduct p s first (.ok a) mid ∧
          Runs conduct (f a) mid rest result s' ∧ log = first ++ rest := by
  induction p generalizing s log with
  | done a => simp
  | stop e => simp [and_assoc, and_comm, and_left_comm]
  | ask q next ih =>
    simp only [ask_bind, runs_ask_iff, ih]
    constructor
    · rintro ⟨answer, mid, rest, h, ⟨e, hrun, rfl⟩ | ⟨a, end₁, first, last, hrun, hf, rfl⟩, rfl⟩
      · exact .inl ⟨e, ⟨answer, mid, rest, h, hrun, rfl⟩, rfl⟩
      · exact .inr ⟨a, end₁, _, last, ⟨answer, mid, first, h, hrun, rfl⟩, hf, rfl⟩
    · rintro (⟨e, ⟨answer, mid, rest, h, hrun, rfl⟩, rfl⟩ |
        ⟨a, end₁, first, last, ⟨answer, mid, rest, h, hrun, rfl⟩, hf, rfl⟩)
      · exact ⟨answer, mid, rest, h, .inl ⟨e, hrun, rfl⟩, rfl⟩
      · exact ⟨answer, mid, rest ++ last, h, .inr ⟨a, end₁, rest, last, hrun, hf, rfl⟩, rfl⟩

theorem runs_bind_ok_iff {p : Program I ε α} {f : α → Program I ε β} {b : β} :
    Runs conduct (p.bind f) s log (.ok b) s' ↔
      ∃ a mid first rest, Runs conduct p s first (.ok a) mid ∧
        Runs conduct (f a) mid rest (.ok b) s' ∧ log = first ++ rest := by
  simp [runs_bind_iff]

theorem Runs.of_log {conduct' : Conduct I σ} {p : Program I ε α} {result : Except ε α}
    (hrun : Runs conduct p s log result s')
    (h : ∀ event ∈ log, ∀ s s', conduct s event.query event.answer s' →
      conduct' s event.query event.answer s') : Runs conduct' p s log result s' := by
  induction hrun with
  | done a s => exact .done a s
  | stop e s => exact .stop e s
  | ask answered _ ih =>
    obtain ⟨hfirst, hrest⟩ := List.forall_mem_cons.mp h
    exact .ask (hfirst _ _ answered) (ih hrest)

theorem Runs.mono {conduct' : Conduct I σ} (h : conduct ≤ conduct') {p : Program I ε α}
    {result : Except ε α} (hrun : Runs conduct p s log result s') :
    Runs conduct' p s log result s' :=
  hrun.of_log fun event _ s s' => h s event.query event.answer s'

theorem Runs.conducted {p : Program I ε α} {result : Except ε α}
    (hrun : Runs conduct p s log result s') :
    ∀ event ∈ log, ∃ before after, conduct before event.query event.answer after := by
  induction hrun with
  | done | stop => exact List.forall_mem_nil _
  | ask answered _ ih => exact List.forall_mem_cons.mpr ⟨⟨_, _, answered⟩, ih⟩

theorem Runs.keeps {holds : σ → Prop} {p : Program I ε α} {result : Except ε α}
    (hrun : Runs conduct p s log result s')
    (hstep : ∀ before query answer after, conduct before query answer after → holds before →
      holds after) (h : holds s) : holds s' := by
  induction hrun with
  | done | stop => exact h
  | ask answered _ ih => exact ih (hstep _ _ _ _ answered h)

def anyhow : Conduct I Unit := fun _ _ _ _ => True

theorem Runs.anyhow {p : Program I ε α} {result : Except ε α}
    (hrun : Runs conduct p s log result s') : Runs anyhow p () log result () := by
  induction hrun with
  | done a s => exact .done a ()
  | stop e s => exact .stop e ()
  | ask _ _ ih => exact .ask trivial ih

theorem run_bind_congr {answer answer' : Handler I ε τ} {p p' : Program I ε α}
    {f f' : α → Program I ε β} {s : τ} (h : p.run answer s = p'.run answer' s)
    (hnext : ∀ a s', (f a).run answer s' = (f' a).run answer' s') :
    (p.bind f).run answer s = (p'.bind f').run answer' s := by
  rw [run_bind, run_bind, h]
  rcases p'.run answer' s with ⟨_ | a, s'⟩
  · rfl
  · exact hnext a s'

def transcript (answer : Handler I ε τ) : Program I ε α → τ → List (Answered I)
  | .done _, _ => []
  | .stop _, _ => []
  | .ask q next, s =>
    match answer q s with
    | (.ok a, s') => ⟨q, a⟩ :: (next a).transcript answer s'
    | (.error _, _) => []

theorem transcript_bind (answer : Handler I ε τ) (p : Program I ε α) (f : α → Program I ε β)
    (s : τ) : (p.bind f).transcript answer s = p.transcript answer s ++
      match p.run answer s with
      | (.ok a, s') => (f a).transcript answer s'
      | (.error _, _) => [] := by
  induction p generalizing s with
  | done a => rfl
  | stop e => rfl
  | ask q next ih =>
    simp only [ask_bind, transcript, run]
    rcases answer q s with ⟨_ | a, s'⟩
    · rfl
    · exact congrArg _ (ih a s')

theorem answered_of_mem_transcript {answer : Handler I ε τ} {p : Program I ε α} {s : τ}
    {event : Answered I} (h : event ∈ p.transcript answer s) :
    ∃ before after, answer event.query before = (.ok event.answer, after) := by
  induction p generalizing s with
  | done a => cases h
  | stop e => cases h
  | ask q next ih =>
    rw [transcript] at h
    split at h
    · rename_i a s' hanswer
      rcases List.mem_cons.mp h with rfl | h
      · exact ⟨s, s', hanswer⟩
      · exact ih a h
    · cases h

theorem runs_run {answer : Handler I ε τ} {view : τ → σ}
    (h : ∀ q s, ∃ a s', answer q s = (.ok a, s') ∧ conduct (view s) q a (view s'))
    (p : Program I ε α) (s : τ) :
    Runs conduct p (view s) (p.transcript answer s) (p.run answer s).1
      (view (p.run answer s).2) := by
  induction p generalizing s with
  | done a => exact .done a _
  | stop e => exact .stop e _
  | ask q next ih =>
    obtain ⟨a, s', hanswer, hconduct⟩ := h q s
    simp only [transcript, run, hanswer]
    exact .ask hconduct (ih a s')

end Program
end ReleaseTracker
