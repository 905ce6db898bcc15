import ReleaseTracker.Proofs.Sync.Replies
import ReleaseTracker.Proofs.Work.Frame

/-! What a unit of work that gives up leaves behind. The tables are as they were, but for the mark
of a subject that GitHub does not have any more, and nothing is announced. GitHub is asked for more
than the calls left only when there are some. -/

namespace ReleaseTracker
open GitHub (ApiCall)
open Program StoreRule

variable {item : WorkItem} {reason : AbortReason} {chosen log : Log} {t t' : Tables}

theorem Log.Harmless.announcements (h : log.Harmless) : log.announcements = [] := by
  refine List.filterMap_eq_nil_iff.mpr fun event hevent => ?_
  have hquery := h event hevent
  obtain ⟨query, answer⟩ := event
  cases query with
  | announce => cases hquery
  | _ => rfl

theorem Task.Query.eq_of_isChoice {identity : Identity} {call : ApiCall}
    (h : Task.Query.isChoice (.github identity call) = true) : call = .remainingCalls := by
  cases call with
  | remainingCalls => rfl
  | _ => cases h

theorem Log.Choosing.requests (h : log.Choosing) :
    ∀ request ∈ log.requests, request.2 = .remainingCalls := by
  intro request hrequest
  obtain ⟨⟨query, answer⟩, hevent, hasked⟩ := List.mem_filterMap.mp hrequest
  cases query with
  | github identity call =>
    cases Option.some.inj hasked
    exact Task.Query.eq_of_isChoice (h _ hevent)
  | _ => cases hasked

theorem Log.Choosing.asked_after {work before after : Log} {event : Answered Task}
    (h : chosen.Choosing) (hlog : chosen ++ work = before ++ event :: after)
    (hevent : event.query.isChoice ≠ true) :
    ∃ between, before = chosen ++ between ∧ work = between ++ event :: after := by
  obtain hsplit | ⟨between, hchosen, hrest⟩ := List.append_eq_append_iff.mp hlog
  · exact hsplit
  cases between with
  | nil => exact ⟨[], by simp [hchosen], hrest.symm⟩
  | cons first between =>
    obtain ⟨rfl, -⟩ := List.cons.inj hrest
    refine absurd (h event ?_) hevent
    rw [hchosen]
    simp

theorem WorkItem.Entered.removalIn (h : item.Entered chosen log) (hharmless : log.Harmless)
    (htrace : Trace fallible.conduct t log t') : item.removalIn t = some none := by
  obtain ⟨identity, found, calls, rest, hpresent, -, rfl⟩ := h
  obtain ⟨mid, hchosen, hrest⟩ := trace_append_iff.mp htrace
  have hbefore : chosen.Harmless := (List.forall_mem_append.mp hharmless).1
  obtain rfl := hbefore.eq_of_trace hchosen
  cases hrest with
  | cons hlookup _ => rw [← removal_of_lookup hlookup, hpresent]

/-- The row of the subject had no time of removal, and has got one. Its other columns are as they
were, and so are all other rows. -/
def WorkItem.Removes (t t' : Tables) : WorkItem → Prop
  | .stars userId => ∃ user time, t.user? userId = some user ∧ user.removedAt = none ∧
    t' = { t with users := t.users.map fun row =>
      if row.id = userId then { row with removedAt := some time } else row }
  | .versions repoId => ∃ repo time, t.repo? repoId = some repo ∧ repo.removedAt = none ∧
    t' = { t with repos := t.repos.map fun row =>
      if row.id = repoId then { row with removedAt := some time } else row }

theorem WorkItem.removes_markedIn (h : item.removalIn t = some none) (time : Instant) :
    item.Removes t (item.markedIn t time) := by
  cases item with
  | stars userId =>
    obtain ⟨user, hfound, hactive⟩ := Option.map_eq_some_iff.mp h
    exact ⟨user, .utc time, hfound, hactive, rfl⟩
  | versions repoId =>
    obtain ⟨repo, hfound, hactive⟩ := Option.map_eq_some_iff.mp h
    exact ⟨repo, .utc time, hfound, hactive, rfl⟩

/-- What a unit that was aborted for a reason has done, when its identity was chosen by the first
part of the log. -/
structure WorkItem.Spared (item : WorkItem) (reason : AbortReason) (chosen log : Log)
    (t t' : Tables) : Prop where
  quiet : log.announcements = []
  unchanged : reason ≠ .removed → t' = t
  removed : reason = .removed → item.Removes t t'
  unasked : reason ∈ [.noClient, .userNotFound, .repoNotFound, .alreadyRemoved] →
    log.requests = chosen.requests
  probed : reason = .quotaExhausted →
    ∃ identity, log.requests = chosen.requests ++ [(identity, .remainingCalls)]

namespace WorkItem

theorem Spared.of_lookup {found : item.lookup.Result}
    (hreason : reason ∈ [.noClient, .userNotFound, .repoNotFound, .alreadyRemoved])
    (hchosen : chosen.Harmless)
    (htrace : Trace fallible.conduct t (chosen ++ [⟨.store item.lookup, Except.ok found⟩]) t') :
    item.Spared reason chosen (chosen ++ [⟨.store item.lookup, Except.ok found⟩]) t t' := by
  have hharmless : Log.Harmless (chosen ++ [⟨.store item.lookup, Except.ok found⟩]) :=
    hchosen.lookup
  refine ⟨hharmless.announcements, fun _ => (hharmless.eq_of_trace htrace).symm, ?_,
    fun _ => by simp, ?_⟩
  · rintro rfl
    simp at hreason
  · rintro rfl
    simp at hreason

theorem GivesUp.spared (h : item.GivesUp chosen reason log) (hchosen : chosen.Harmless)
    (htrace : Trace fallible.conduct t log t') : item.Spared reason chosen log t t' := by
  cases h with
  | missing habsent =>
    refine .of_lookup ?_ hchosen htrace
    cases item <;> simp [WorkItem.missing]
  | removed hremoved => exact .of_lookup (by simp) hchosen htrace
  | @exhausted identity found answer hpresent =>
    have hharmless : Log.Harmless (chosen ++ [⟨.store item.lookup, Except.ok found⟩] ++
      [⟨.github identity .remainingCalls, answer⟩]) := hchosen.lookup.snoc rfl
    rw [List.append_assoc] at hharmless
    exact ⟨hharmless.announcements, fun _ => (hharmless.eq_of_trace htrace).symm, by simp, by simp,
      fun _ => ⟨identity, by simp⟩⟩
  | refused _ hharmless =>
    exact ⟨hharmless.announcements, fun _ => (hharmless.eq_of_trace htrace).symm, by simp, by simp,
      by simp⟩
  | @marked log time value hentered hharmless =>
    -- all that was asked before the mark left the tables as they were
    obtain ⟨mid, hlog, hlast⟩ := trace_append_iff.mp htrace
    have hremoval := hentered.removalIn hharmless hlog
    obtain rfl := hharmless.eq_of_trace hlog
    cases hlast with
    | cons hmark hnone =>
    cases hnone
    obtain rfl := eq_of_marked hmark
    refine ⟨?_, fun h => absurd rfl h, fun _ => removes_markedIn hremoval time, by simp, by simp⟩
    rw [Log.announcements_append, hharmless.announcements]
    rfl

end WorkItem

variable {σ : Type}

theorem Surroundings.handle_cases (w : Surroundings fallible σ) (engine : Engine) (item : WorkItem)
    (s : σ) :
    (w.transcript (engine.handle item) s = w.transcript engine.selector.find s ∧
      ∀ reason, (w.run (engine.handle item) s).1 = .ok (.aborted reason) → reason = .noClient) ∨
    ∃ client s', w.run engine.selector.find s = (.ok (some client), s') ∧
      w.run (engine.handle item) s = w.run (engine.sync (engine.selector.caller client) item) s' ∧
        w.transcript (engine.handle item) s = w.transcript engine.selector.find s ++
          w.transcript (engine.sync (engine.selector.caller client) item) s' := by
  unfold Surroundings.transcript Surroundings.run Engine.handle
  rw [run_bind, transcript_bind]
  rcases engine.selector.find.run w.answer s with ⟨e | client?, s'⟩
  · refine .inl ⟨List.append_nil _, fun reason h => ?_⟩
    cases h
  cases client? with
  | none =>
    refine .inl ⟨List.append_nil _, fun reason h => ?_⟩
    exact (Outcome.aborted.inj (Except.ok.inj h)).symm
  | some client => exact .inr ⟨client, s', rfl, rfl, rfl⟩

/-- A unit of work that is aborted has no effect but the mark of a subject that has gone, and has
asked for no more than the calls left, unless its subject was there and there were some. -/
theorem handle_aborted_spares (w : Surroundings fallible σ) (engine : Engine) (item : WorkItem)
    (s : σ) :
    (∀ reason, (w.run (engine.handle item) s).1 = .ok (.aborted reason) →
      item.Spared reason (w.transcript engine.selector.find s)
        (w.transcript (engine.handle item) s) (w.tables s)
        (w.tables (w.run (engine.handle item) s).2)) ∧
    (∀ request ∈ (w.transcript engine.selector.find s).requests, request.2 = .remainingCalls) ∧
    ∀ before identity call answer after, w.transcript (engine.handle item) s =
      before ++ ⟨.github identity call, answer⟩ :: after → call ≠ .remainingCalls →
        item.Entered (w.transcript engine.selector.find s) before := by
  have htrace := (w.runs (engine.handle item) s).trace
  obtain ⟨hchoosing, -⟩ := Selector.find_runs (w.runs engine.selector.find s)
  obtain ⟨hlog, hnone⟩ | ⟨client, s', -, hrun, hlog⟩ := w.handle_cases engine item s
  · rw [hlog] at htrace ⊢
    refine ⟨fun reason hresult => ?_, hchoosing.requests,
      fun before identity call answer after hsplit hcall => ?_⟩
    · obtain rfl := hnone reason hresult
      exact ⟨hchoosing.harmless.announcements,
        fun _ => (hchoosing.harmless.eq_of_trace htrace).symm, by simp, fun _ => rfl, by simp⟩
    · refine absurd (hchoosing.requests (identity, call) ?_) hcall
      rw [hsplit]
      simp
  · have hwork := w.runs (engine.sync (engine.selector.caller client) item) s'
    obtain ⟨hends, hasked⟩ :=
      (Engine.sync_ensures hchoosing.harmless).runs hwork fun _ _ _ _ => proper_of_fallible
    rw [hlog, hrun] at htrace ⊢
    refine ⟨fun reason hresult => ?_, hchoosing.requests,
      fun before identity call answer after hsplit hcall => ?_⟩
    · exact (hends reason hresult).spared hchoosing.harmless htrace
    · obtain ⟨between, rfl, hlater⟩ :=
        hchoosing.asked_after hsplit (mt Task.Query.eq_of_isChoice hcall)
      exact (hasked between _ after hlater).entered hcall

namespace Engine.Sample

def engine : Engine := ⟨⟨some (.app "id" "secret"), 1, 1⟩, .default 2⟩

def gone : GitHub.Facts
  | .remainingCalls => .ok 9
  | _ => .error (.notFound "")

def world (facts : GitHub.Facts) : Surroundings fallible Tables :=
  (Surroundings.steady facts StarSync.Sample.time).failing fun _ => none

end Engine.Sample

open Engine.Sample StarSync.Sample in
theorem handle_aborted_spares_gone :
    ((world gone).run (engine.handle (.stars 1)) tables).1 = .ok (.aborted .removed) ∧
    (WorkItem.stars 1).Spared .removed ((world gone).transcript engine.selector.find tables)
      ((world gone).transcript (engine.handle (.stars 1)) tables) tables
      ((world gone).run (engine.handle (.stars 1)) tables).2 ∧
    (WorkItem.stars 1).Entered ((world gone).transcript engine.selector.find tables)
      (((world gone).transcript (engine.handle (.stars 1)) tables).take 5) := by
  obtain ⟨hspared, -, hentered⟩ :=
    handle_aborted_spares (world gone) engine (.stars 1) tables
  have hresult : ((world gone).run (engine.handle (.stars 1)) tables).1 = .ok (.aborted .removed) :=
    rfl
  refine ⟨hresult, hspared .removed hresult, ?_⟩
  exact hentered _ .app (.starredPage "ann" none 100) (.error (.notFound ""))
    (((world gone).transcript (engine.handle (.stars 1)) tables).drop 6) rfl (by simp)

end ReleaseTracker
