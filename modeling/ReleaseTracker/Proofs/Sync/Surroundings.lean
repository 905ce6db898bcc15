import ReleaseTracker.Proofs.Program.Runs
import ReleaseTracker.Proofs.Store.Rule
import ReleaseTracker.Sync.Task

/-! Surroundings of a unit of work: they answer every question, and only store calls touch the
tables, as a rule of the store allows. What GitHub, the clock and the hub answer is left open. -/

namespace ReleaseTracker
open GitHub (ApiCall)

abbrev Log := List (Answered Task)

namespace StoreRule

def conduct (rule : StoreRule) : Conduct Task Tables :=
  fun t (query : Task.Query) (answer : Task.Answer query) t' =>
    match query, answer with
    | .store call, answer => rule t call answer t'
    | .github _ _, _ | .authenticate _, _ | .clock, _ | .announce _, _ => t' = t

theorem conduct_mono {rule rule' : StoreRule} (hrule : rule ≤ rule') :
    rule.conduct ≤ rule'.conduct := by
  intro t query answer t' h
  cases query with
  | store call => exact hrule t call answer t' h
  | _ => exact h

theorem runs_fallible {α : Type} {work : Work α} {t t' : Tables} {log : Log}
    {result : Except Fault α} (h : work.Runs reliable.conduct t log result t') :
    work.Runs fallible.conduct t log result t' :=
  h.mono (conduct_mono reliable_le_fallible)

end StoreRule

abbrev GitHub.Facts := (call : ApiCall) → Except ApiError call.Result

namespace Log
variable {log log' : Log} {facts : GitHub.Facts}

/-- GitHub kept to the facts. -/
def ToldBy (facts : GitHub.Facts) (log : Log) : Prop :=
  ∀ (identity : Identity) (call : ApiCall) (answer : Except ApiError call.Result),
    ⟨.github identity call, answer⟩ ∈ log → answer = facts call

/-- No call on GitHub failed. -/
def Unfailing (log : Log) : Prop :=
  ∀ (identity : Identity) (call : ApiCall) (answer : Except ApiError call.Result),
    ⟨.github identity call, answer⟩ ∈ log → ∃ value, answer = .ok value

theorem ToldBy.mono (h : log.ToldBy facts) (hsub : log' ⊆ log) : log'.ToldBy facts :=
  fun identity call answer hmem => h identity call answer (hsub hmem)

theorem Unfailing.mono (h : log.Unfailing) (hsub : log' ⊆ log) : log'.Unfailing :=
  fun identity call answer hmem => h identity call answer (hsub hmem)

def announcement? : Answered Task → Option (List Int)
  | ⟨.announce repoIds, _⟩ => some repoIds
  | _ => none

def announcements (log : Log) : List (List Int) := log.filterMap announcement?

@[simp] theorem announcements_nil : announcements [] = [] := rfl

@[simp] theorem announcements_append (first rest : Log) :
    announcements (first ++ rest) = first.announcements ++ rest.announcements :=
  List.filterMap_append

@[simp] theorem announcements_store (call : StoreCall) (answer : Except StoreError call.Result)
    (log : Log) : announcements (⟨.store call, answer⟩ :: log) = log.announcements := rfl

@[simp] theorem announcements_github (identity : Identity) (call : ApiCall)
    (answer : Except ApiError call.Result) (log : Log) :
    announcements (⟨.github identity call, answer⟩ :: log) = log.announcements := rfl

@[simp] theorem announcements_clock (now : Instant) (log : Log) :
    announcements (⟨.clock, now⟩ :: log) = log.announcements := rfl

@[simp] theorem announcements_announce (repoIds : List Int) (accepted : Bool) (log : Log) :
    announcements (⟨.announce repoIds, accepted⟩ :: log) = repoIds :: log.announcements := rfl

end Log

structure Surroundings (rule : StoreRule) (σ : Type) where
  answer : Handler Task Fault σ
  tables : σ → Tables
  answers : ∀ q s, ∃ a s', answer q s = (.ok a, s') ∧ rule.conduct (tables s) q a (tables s')

namespace Surroundings
variable {rule : StoreRule} {σ α : Type}

def run (w : Surroundings rule σ) (work : Work α) (s : σ) : Except Fault α × σ :=
  work.run w.answer s

def transcript (w : Surroundings rule σ) (work : Work α) (s : σ) : Log :=
  work.transcript w.answer s

theorem runs (w : Surroundings rule σ) (work : Work α) (s : σ) :
    work.Runs rule.conduct (w.tables s) (w.transcript work s) (w.run work s).1
      (w.tables (w.run work s).2) :=
  Program.runs_run w.answers work s

/-- A reliable store, a GitHub that sticks to some facts, a clock that stands, and a hub that takes
everything. -/
def steady (facts : GitHub.Facts) (now : Instant) : Surroundings StoreRule.reliable Tables where
  answer
    | .store call, t => (.ok (t.perform now call).1, (t.perform now call).2)
    | .github _ call, t => (.ok (facts call), t)
    | .authenticate _, t => (.ok true, t)
    | .clock, t => (.ok now, t)
    | .announce _, t => (.ok true, t)
  tables t := t
  answers query t := by
    cases query with
    | store call => exact ⟨_, _, rfl, now, rfl⟩
    | _ => exact ⟨_, _, rfl, rfl⟩

theorem steady_clock {facts : GitHub.Facts} {now time : Instant} {work : Work α} {t : Tables}
    (h : ⟨.clock, time⟩ ∈ (steady facts now).transcript work t) : time = now := by
  obtain ⟨before, after, hanswer⟩ := Program.answered_of_mem_transcript h
  exact (Except.ok.inj (Prod.mk.inj hanswer).1).symm

theorem steady_github {facts : GitHub.Facts} {now : Instant} {work : Work α} {t : Tables}
    {identity : Identity} {call : ApiCall} {answer : Except ApiError call.Result}
    (h : ⟨.github identity call, answer⟩ ∈ (steady facts now).transcript work t) :
    answer = facts call := by
  obtain ⟨before, after, hanswer⟩ := Program.answered_of_mem_transcript h
  exact (Except.ok.inj (Prod.mk.inj hanswer).1).symm

def failing (w : Surroundings StoreRule.reliable σ) (error? : StoreCall → Option StoreError) :
    Surroundings StoreRule.fallible σ where
  answer
    | .store call, s =>
      match error? call with
      | some e => (.ok (Except.error e), s)
      | none => w.answer (.store call) s
    | query, s => w.answer query s
  tables := w.tables
  answers query s := by
    cases query with
    | store call =>
      cases h : error? call with
      | some e => exact ⟨Except.error e, s, by simp only [h], .inr ⟨e, rfl, .inl rfl⟩⟩
      | none =>
        obtain ⟨a, s', hanswer, hconduct⟩ := w.answers (.store call) s
        exact ⟨a, s', by simpa only [h] using hanswer, .inl hconduct⟩
    | github identity call => exact w.answers (.github identity call) s
    | authenticate credential => exact w.answers (.authenticate credential) s
    | clock => exact w.answers .clock s
    | announce repoIds => exact w.answers (.announce repoIds) s

theorem failing_github {facts : GitHub.Facts} {now : Instant}
    {error? : StoreCall → Option StoreError} {work : Work α} {t : Tables} {identity : Identity}
    {call : ApiCall} {answer : Except ApiError call.Result}
    (h : ⟨.github identity call, answer⟩ ∈ ((steady facts now).failing error?).transcript work t) :
    answer = facts call := by
  obtain ⟨before, after, hanswer⟩ := Program.answered_of_mem_transcript h
  exact (Except.ok.inj (Prod.mk.inj hanswer).1).symm

end Surroundings

namespace Work
open Program
variable {rule : StoreRule} {α : Type} {t t' : Tables} {log : Log} {result : Except Fault α}

theorem runs_store_bind_iff {call : StoreCall} {f : call.Result → Work α} :
    ((store call).bind f).Runs rule.conduct t log result t' ↔
      (∃ e, rule t call (.error e) t' ∧ result = .error (.store e) ∧
        log = [⟨.store call, Except.error e⟩]) ∨
      ∃ value mid rest, rule t call (.ok value) mid ∧
        (f value).Runs rule.conduct mid rest result t' ∧
          log = ⟨.store call, Except.ok value⟩ :: rest := by
  refine runs_ask_iff.trans ?_
  constructor
  · rintro ⟨answer, mid, rest, h, hrest, rfl⟩
    change Except StoreError call.Result at answer
    cases answer with
    | ok value => exact .inr ⟨value, mid, rest, h, hrest, rfl⟩
    | error e =>
      obtain ⟨rfl, rfl, rfl⟩ := runs_stop_iff.mp hrest
      exact .inl ⟨e, h, rfl, rfl⟩
  · rintro (⟨e, h, rfl, rfl⟩ | ⟨value, mid, rest, h, hrest, rfl⟩)
    · exact ⟨Except.error e, t', [], h, .stop (Fault.store e) t', rfl⟩
    · exact ⟨Except.ok value, mid, rest, h, hrest, rfl⟩

theorem runs_store_last {call : StoreCall} {a : α}
    (h : ((store call).bind fun _ => .done a).Runs rule.conduct t log result t') :
    ∃ answer : Except StoreError call.Result, log = [⟨.store call, answer⟩] := by
  obtain ⟨e, -, -, rfl⟩ | ⟨value, mid, rest, -, hrest, rfl⟩ := runs_store_bind_iff.mp h
  · exact ⟨.error e, rfl⟩
  · obtain ⟨rfl, -⟩ := runs_done_iff.mp hrest
    exact ⟨.ok value, rfl⟩

theorem runs_github_bind_iff {identity : Identity} {call : ApiCall}
    {f : Except ApiError call.Result → Work α} :
    ((github identity call).bind f).Runs rule.conduct t log result t' ↔
      ∃ (answer : Except ApiError call.Result) (rest : Log),
        (f answer).Runs rule.conduct t rest result t' ∧
          log = ⟨.github identity call, answer⟩ :: rest := by
  refine runs_ask_iff.trans ?_
  constructor
  · rintro ⟨answer, mid, rest, rfl, hrest, rfl⟩
    exact ⟨answer, rest, hrest, rfl⟩
  · rintro ⟨answer, rest, hrest, rfl⟩
    exact ⟨answer, t, rest, rfl, hrest, rfl⟩

theorem runs_clock_bind_iff {f : Instant → Work α} :
    (clock.bind f).Runs rule.conduct t log result t' ↔
      ∃ (now : Instant) (rest : Log), (f now).Runs rule.conduct t rest result t' ∧
        log = ⟨.clock, now⟩ :: rest := by
  refine runs_ask_iff.trans ?_
  constructor
  · rintro ⟨now, mid, rest, rfl, hrest, rfl⟩
    exact ⟨now, rest, hrest, rfl⟩
  · rintro ⟨now, rest, hrest, rfl⟩
    exact ⟨now, t, rest, rfl, hrest, rfl⟩

theorem runs_announce_bind_iff {repoIds : List Int} {f : Bool → Work α} :
    ((announce repoIds).bind f).Runs rule.conduct t log result t' ↔
      ∃ (accepted : Bool) (rest : Log), (f accepted).Runs rule.conduct t rest result t' ∧
        log = ⟨.announce repoIds, accepted⟩ :: rest := by
  refine runs_ask_iff.trans ?_
  constructor
  · rintro ⟨accepted, mid, rest, rfl, hrest, rfl⟩
    exact ⟨accepted, rest, hrest, rfl⟩
  · rintro ⟨accepted, rest, hrest, rfl⟩
    exact ⟨accepted, t, rest, rfl, hrest, rfl⟩

def quotaOf : Except ApiError Nat → Quota
  | .ok calls => .remaining calls
  | .error _ => .unavailable

theorem runs_probe_bind_iff {identity : Identity} {f : Quota → Work α} :
    ((probe identity).bind f).Runs rule.conduct t log result t' ↔
      ∃ (answer : Except ApiError Nat) (rest : Log),
        (f (quotaOf answer)).Runs rule.conduct t rest result t' ∧
          log = ⟨.github identity .remainingCalls, answer⟩ :: rest := by
  have hnext : (probe identity).bind f =
      (github identity .remainingCalls).bind fun answer => f (quotaOf answer) :=
    congrArg (Program.ask (I := Task) (.github identity .remainingCalls)) <|
      funext fun (answer : Except ApiError Nat) => by cases answer <;> rfl
  rw [hnext]
  exact runs_github_bind_iff

end Work
end ReleaseTracker
