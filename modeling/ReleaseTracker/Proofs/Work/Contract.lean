import ReleaseTracker.Proofs.Program.Contract
import ReleaseTracker.Proofs.Sync.StarWalk
import ReleaseTracker.Proofs.Sync.VersionSurvey
import ReleaseTracker.Proofs.Work.Subject

/-! The contract of the work on an item. It writes what is its own and nothing else, only after
the subject was seen not to be removed and calls were left, and it marks the subject at most once,
as the first thing that it writes. -/

namespace ReleaseTracker
open GitHub (ApiCall Page StarredRepo Tag)
open Program

/-- Does a question have an effect on the tables, or at the hub? -/
def Task.Query.hasEffect : Task.Query → Bool
  | .store call => call.isWrite
  | .announce _ => true
  | _ => false

def Log.Harmless (log : Log) : Prop := ∀ event ∈ log, event.query.hasEffect = false

theorem Log.Harmless.snoc {log : Log} (h : log.Harmless) {event : Answered Task}
    (hevent : event.query.hasEffect = false) : Log.Harmless (log ++ [event]) :=
  List.forall_mem_append.mpr ⟨h, List.forall_mem_singleton.mpr hevent⟩

theorem Log.Harmless.lookup {log : Log} (h : log.Harmless) {item : WorkItem}
    {answer : Except StoreError item.lookup.Result} :
    Log.Harmless (log ++ [⟨.store item.lookup, answer⟩]) := by
  cases item <;> exact h.snoc rfl

namespace WorkItem

/-- May the work on an item ask this at any time, once it has these ids on its listing? -/
def Owns (item : WorkItem) (ids : List Int) : Task.Query → Prop
  | .store (.upsertRepo draft) => ∃ userId id, item = .stars userId ∧ id ∈ ids ∧
      draft.id = .set id
  | .store (.createStar userId _) => item = .stars userId
  | .store (.deleteStars _ userId) => item = .stars userId
  | .store (.createVersions rows) => ∀ row ∈ rows, item = .versions row.repoId
  | .store (.markUserRemoved _ _) => False
  | .store (.markRepoRemoved _ _) => False
  | _ => True

def Entered (item : WorkItem) (chosen log : Log) : Prop :=
  ∃ (identity : Identity) (found : item.lookup.Result) (calls : Nat) (rest : Log),
    item.removal found = some none ∧ 0 < calls ∧
      log = chosen ++ ⟨.store item.lookup, Except.ok found⟩ ::
        ⟨.github identity .remainingCalls, Except.ok calls⟩ :: rest

inductive MayAsk (item : WorkItem) (chosen : Log) : Log → Task.Query → Prop
  | look : MayAsk item chosen chosen (.store item.lookup)
  | probe {identity : Identity} {found : item.lookup.Result}
      (present : item.removal found = some none) :
      MayAsk item chosen (chosen ++ [⟨.store item.lookup, Except.ok found⟩])
        (.github identity .remainingCalls)
  | work {log : Log} {query : Task.Query} (entered : item.Entered chosen log)
      (owned : item.Owns (listedIds log.pages) query) : MayAsk item chosen log query
  | mark {log : Log} (time : Instant) (entered : item.Entered chosen log)
      (harmless : log.Harmless) : MayAsk item chosen log (.store (item.mark time))

inductive GivesUp (item : WorkItem) (chosen : Log) : AbortReason → Log → Prop
  | missing {found : item.lookup.Result} (absent : item.removal found = none) :
      GivesUp item chosen item.missing (chosen ++ [⟨.store item.lookup, Except.ok found⟩])
  | removed {found : item.lookup.Result} {time : ZonedTime}
      (removed : item.removal found = some (some time)) :
      GivesUp item chosen .alreadyRemoved (chosen ++ [⟨.store item.lookup, Except.ok found⟩])
  | exhausted {identity : Identity} {found : item.lookup.Result} {answer : Except ApiError Nat}
      (present : item.removal found = some none) :
      GivesUp item chosen .quotaExhausted
        (chosen ++ [⟨.store item.lookup, Except.ok found⟩,
          ⟨.github identity .remainingCalls, answer⟩])
  | refused {log : Log} (entered : item.Entered chosen log) (harmless : log.Harmless) :
      GivesUp item chosen .remoteFailure log
  | marked {log : Log} (time : Instant) {value : (item.mark time).Result}
      (entered : item.Entered chosen log) (harmless : log.Harmless) :
      GivesUp item chosen .removed (log ++ [⟨.store (item.mark time), Except.ok value⟩])

def MayEnd (item : WorkItem) (chosen log : Log) (result : Except Fault Outcome) : Prop :=
  ∀ reason, result = .ok (.aborted reason) → item.GivesUp chosen reason log

variable {item : WorkItem} {chosen log : Log}

theorem Entered.append (h : item.Entered chosen log) (more : Log) :
    item.Entered chosen (log ++ more) := by
  obtain ⟨identity, found, calls, rest, hpresent, hcalls, rfl⟩ := h
  exact ⟨identity, found, calls, rest ++ more, hpresent, hcalls, by simp⟩

theorem Owns.mono {ids ids' : List Int} {query : Task.Query} (h : item.Owns ids query)
    (hids : ids ⊆ ids') : item.Owns ids' query := by
  unfold Owns at h ⊢
  split at h
  · obtain ⟨userId, id, hitem, hid, hdraft⟩ := h
    exact ⟨userId, id, hitem, hids hid, hdraft⟩
  all_goals exact h

theorem MayAsk.entered {identity : Identity} {call : ApiCall}
    (h : item.MayAsk chosen log (.github identity call)) (hcall : call ≠ .remainingCalls) :
    item.Entered chosen log := by
  cases h with
  | probe => exact absurd rfl hcall
  | work hentered _ => exact hentered

theorem mayEnd_error (e : Fault) : item.MayEnd chosen log (.error e) := by
  intro reason h
  cases h

theorem mayEnd_ok {outcome : Outcome} (h : outcome.isAborted = false) :
    item.MayEnd chosen log (.ok outcome) := by
  intro reason hreason
  rw [Except.ok.inj hreason] at h
  cases h

end WorkItem

/-! Contracts of questions -/

namespace Work
variable {α : Type} {may : (query : Task.Query) → Task.Answer query → Prop}
  {asks : Log → Task.Query → Prop} {ends : Log → Except Fault α → Prop} {log : Log}

theorem ensures_store_bind_iff {call : StoreCall} {f : call.Result → Work α} :
    Program.Ensures may asks ends log ((store call).bind f) ↔ asks log (.store call) ∧
      (∀ e, may (.store call) (Except.error e) →
        ends (log ++ [⟨.store call, Except.error e⟩]) (.error (.store e))) ∧
      ∀ value, may (.store call) (Except.ok value) →
        (f value).Ensures may asks ends (log ++ [⟨.store call, Except.ok value⟩]) := by
  refine ensures_ask_iff.trans (and_congr_right fun _ => ?_)
  constructor
  · intro h
    exact ⟨fun e => h (Except.error e), fun value => h (Except.ok value)⟩
  · rintro ⟨herror, hok⟩ answer
    change Except StoreError call.Result at answer
    cases answer with
    | error e => exact herror e
    | ok value => exact hok value

theorem ensures_github_bind_iff {identity : Identity} {call : ApiCall}
    {f : Except ApiError call.Result → Work α} :
    Program.Ensures may asks ends log ((github identity call).bind f) ↔
      asks log (.github identity call) ∧
        ∀ answer : Except ApiError call.Result, may (.github identity call) answer →
          (f answer).Ensures may asks ends (log ++ [⟨.github identity call, answer⟩]) :=
  ensures_ask_iff

theorem ensures_clock_bind_iff {f : Instant → Work α} :
    Program.Ensures may asks ends log (clock.bind f) ↔ asks log .clock ∧
      ∀ now, may .clock now → (f now).Ensures may asks ends (log ++ [⟨.clock, now⟩]) :=
  ensures_ask_iff

theorem ensures_announce_bind_iff {repoIds : List Int} {f : Bool → Work α} :
    Program.Ensures may asks ends log ((announce repoIds).bind f) ↔
      asks log (.announce repoIds) ∧ ∀ accepted, may (.announce repoIds) accepted →
        (f accepted).Ensures may asks ends (log ++ [⟨.announce repoIds, accepted⟩]) :=
  ensures_ask_iff

theorem ensures_probe_bind_iff {identity : Identity} {f : Quota → Work α} :
    Program.Ensures may asks ends log ((probe identity).bind f) ↔
      asks log (.github identity .remainingCalls) ∧
        ∀ answer : Except ApiError Nat, may (.github identity .remainingCalls) answer →
          (f (quotaOf answer)).Ensures may asks ends
            (log ++ [⟨.github identity .remainingCalls, answer⟩]) := by
  refine ensures_ask_iff.trans (and_congr_right fun _ => forall_congr' fun answer => ?_)
  change Except ApiError Nat at answer
  cases answer <;> rfl

end Work

def Yields {α : Type} (good : α → Prop) : Except Fault α → Prop
  | .ok a => good a
  | .error e => e ≠ .unfinished

section Parts
variable {may : (query : Task.Query) → Task.Answer query → Prop} {item : WorkItem}
  {chosen log : Log}

theorem Work.Inquiry.ensures {α : Type} {asked : ApiCall → Prop} {fails : ApiCall → α → Prop}
    {succeeds : α → Prop} {p : Work α} {asks : Log → Task.Query → Prop}
    (h : p.Inquiry asked fails succeeds)
    (hgithub : ∀ log identity call, asked call → asks log (.github identity call))
    (hclock : ∀ log, asks log .clock) :
    Program.Ensures may asks (fun _ result => ∃ a, result = .ok a ∧
      (succeeds a ∨ ∃ call, fails call a)) log p := by
  induction h generalizing log with
  | done hsuccess => exact ⟨_, rfl, .inl hsuccess⟩
  | github hasked hfailure _ ih =>
    refine Work.ensures_github_bind_iff.mpr ⟨hgithub log _ _ hasked, fun answer _ => ?_⟩
    cases answer with
    | error e =>
      obtain ⟨a, hdone, ha⟩ := hfailure e
      rw [hdone]
      exact ⟨a, rfl, .inr ⟨_, ha⟩⟩
    | ok value => exact ih value
  | clock _ ih =>
    exact Work.ensures_clock_bind_iff.mpr ⟨hclock log, fun now _ => ih now⟩

theorem WorkItem.Entered.ensures {α : Type} {p : Work α}
    {any : Except Fault α → Prop} {ends : Log → Except Fault α → Prop}
    (hentered : item.Entered chosen log)
    (h : Program.Ensures may (fun _ => item.Owns (listedIds log.pages)) (fun _ => any) log p)
    (hends : ∀ more result, any result → ends (log ++ more) result) :
    Program.Ensures may (item.MayAsk chosen) ends log p := by
  refine h.under (fun more query howns => ?_) hends
  refine .work (hentered.append more) (howns.mono ?_)
  rw [Log.pages_append, listedIds_append]
  exact List.subset_append_left _ _

theorem WorkItem.mark_ensures (hentered : item.Entered chosen log) (hharmless : log.Harmless) :
    Program.Ensures may (item.MayAsk chosen) (item.MayEnd chosen) log
      (Work.clock.bind fun now => (Work.store (item.mark now)).bind fun _ =>
        .done (.aborted .removed)) := by
  refine Work.ensures_clock_bind_iff.mpr ⟨.work hentered trivial, fun now _ => ?_⟩
  have hentered' := hentered.append [⟨.clock, now⟩]
  have hharmless' : Log.Harmless (log ++ [⟨.clock, now⟩]) := hharmless.snoc rfl
  refine Work.ensures_store_bind_iff.mpr ⟨.mark now hentered' hharmless', fun e _ => ?_,
    fun value _ => ?_⟩
  · exact mayEnd_error _
  · rintro reason ⟨⟩
    exact .marked now hentered' hharmless'

end Parts
end ReleaseTracker
