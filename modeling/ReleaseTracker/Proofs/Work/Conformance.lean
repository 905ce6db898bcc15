import ReleaseTracker.Proofs.Work.StarConformance
import ReleaseTracker.Proofs.Work.VersionConformance

/-! The handling of an item keeps to its contract: the choice of an identity, which asks nothing
with an effect, and then the work for it. -/

namespace ReleaseTracker
open Program

variable {may : (query : Task.Query) → Task.Answer query → Prop} {chosen log : Log}

/-! The work for an identity -/

namespace Engine
variable {engine : Engine} {identity : Identity} {item : WorkItem} {found : item.lookup.Result}

theorem pursue_ensures (hproper : Task.Proper (.store item.lookup) (Except.ok found))
    (hpresent : item.removal found = some none) (hentered : item.Entered chosen log)
    (hharmless : log.Harmless) :
    Program.Ensures may (item.MayAsk chosen) (item.MayEnd chosen) log
      (engine.pursue identity item found) := by
  cases item with
  | stars userId =>
    match found with
    | none => cases hpresent
    | some user =>
      obtain rfl := hproper user rfl
      exact StarSync.reconcile_ensures hentered hharmless
  | versions repoId =>
    match found with
    | none => cases hpresent
    | some repo =>
      obtain rfl := hproper repo rfl
      exact VersionSync.reconcile_ensures hentered hharmless

theorem attend_ensures (hchosen : chosen.Harmless)
    (hproper : Task.Proper (.store item.lookup) (Except.ok found)) :
    Program.Ensures may (item.MayAsk chosen) (item.MayEnd chosen)
      (chosen ++ [⟨.store item.lookup, Except.ok found⟩]) (engine.attend identity item found) := by
  have hlooked : Log.Harmless (chosen ++ [⟨.store item.lookup, Except.ok found⟩]) :=
    hchosen.lookup
  unfold attend
  split
  · rename_i habsent
    rintro reason ⟨⟩
    exact .missing habsent
  · rename_i time hremoved
    rintro reason ⟨⟩
    exact .removed hremoved
  · rename_i hpresent
    refine Work.ensures_probe_bind_iff.mpr ⟨.probe hpresent, fun answer _ => ?_⟩
    rw [List.append_assoc]
    split_ifs with husable
    · match answer with
      | .ok calls =>
        have hcalls : 0 < calls := by simpa [Work.quotaOf, Quota.isUsable] using husable
        have hentered : item.Entered chosen
            (chosen ++ ([⟨.store item.lookup, Except.ok found⟩] ++
              [⟨.github identity .remainingCalls, Except.ok calls⟩])) :=
          ⟨identity, found, calls, [], hpresent, hcalls, rfl⟩
        refine pursue_ensures hproper hpresent hentered ?_
        rw [← List.append_assoc]
        exact hlooked.snoc rfl
      | .error e => cases husable
    · rintro reason ⟨⟩
      exact .exhausted hpresent

theorem sync_ensures (hchosen : chosen.Harmless) :
    Program.Ensures Task.Proper (item.MayAsk chosen) (item.MayEnd chosen) chosen
      (engine.sync identity item) := by
  rw [sync_eq]
  refine Work.ensures_store_bind_iff.mpr ⟨.look, fun e _ => ?_, fun found hproper => ?_⟩
  · exact WorkItem.mayEnd_error _
  · exact attend_ensures hchosen hproper

end Engine

/-! The choice of an identity -/

def Task.Query.isChoice : Task.Query → Bool
  | .store .userCredentials | .authenticate _ | .github _ .remainingCalls => true
  | _ => false

theorem Task.Query.not_hasEffect_of_isChoice {query : Task.Query} (h : query.isChoice = true) :
    query.hasEffect = false := by
  unfold isChoice at h
  split at h
  · rfl
  · rfl
  · rfl
  · cases h

def Log.Choosing (log : Log) : Prop := ∀ event ∈ log, event.query.isChoice = true

def Task.MayChoose (log : Log) (query : Task.Query) : Prop :=
  log.Choosing ∧ query.isChoice = true

/-- The choice of an identity has ended. Only an error of the store is a fault. -/
def Task.HasChosen {α : Type} (log : Log) (result : Except Fault α) : Prop :=
  log.Choosing ∧ ∀ fault, result = .error fault →
    ∃ call e, fault = .store e ∧ ⟨.store call, Except.error e⟩ ∈ log

theorem Log.Choosing.snoc {log : Log} (h : log.Choosing) {event : Answered Task}
    (hevent : event.query.isChoice = true) : Log.Choosing (log ++ [event]) :=
  List.forall_mem_append.mpr ⟨h, List.forall_mem_singleton.mpr hevent⟩

theorem Log.Choosing.harmless {log : Log} (h : log.Choosing) : log.Harmless :=
  fun event hevent => Task.Query.not_hasEffect_of_isChoice (h event hevent)

theorem Log.Choosing.hasChosen {α : Type} {log : Log} (h : log.Choosing) (a : α) :
    Task.HasChosen log (.ok a) := by
  refine ⟨h, fun fault hfault => ?_⟩
  cases hfault

namespace Selector
variable {selector : Selector}

theorem consider_ensures {credential : Credential} {identity : Identity} {threshold : Nat}
    (h : log.Choosing) :
    Program.Ensures may Task.MayChoose Task.HasChosen log
      (consider credential identity threshold) := by
  refine ensures_ask_iff.mpr ⟨⟨h, rfl⟩, fun (authentic : Bool) _ => ?_⟩
  have h' : Log.Choosing (log ++ [⟨.authenticate credential, authentic⟩]) := h.snoc rfl
  cases authentic with
  | false => exact h'.hasChosen none
  | true =>
    refine Work.ensures_probe_bind_iff.mpr ⟨⟨h', rfl⟩, fun answer _ => ?_⟩
    exact Log.Choosing.hasChosen (h'.snoc rfl) _

theorem firstOf_ensures {threshold : Nat} {users : List UserCredential} (h : log.Choosing) :
    Program.Ensures may Task.MayChoose Task.HasChosen log (firstOf threshold users) := by
  induction users generalizing log with
  | nil => exact h.hasChosen none
  | cons user rest ih =>
    refine (consider_ensures h).bind (fun log client? h => ?_) fun _ _ h => ?_
    · cases client? with
      | none => exact ih h.1
      | some client => exact h.1.hasChosen _
    · exact ⟨h.1, by simpa using h.2⟩

theorem find_ensures (h : log.Choosing) :
    Program.Ensures may Task.MayChoose Task.HasChosen log selector.find := by
  have happ : Program.Ensures may Task.MayChoose Task.HasChosen log selector.considerApp := by
    unfold considerApp
    split
    · exact h.hasChosen none
    · exact consider_ensures h
  refine happ.bind (fun log client? h => ?_) fun _ _ h => ⟨h.1, by simpa using h.2⟩
  cases client? with
  | none =>
    refine Work.ensures_store_bind_iff.mpr ⟨⟨h.1, rfl⟩, fun e _ => ⟨h.1.snoc rfl, ?_⟩,
      fun _ _ => firstOf_ensures (h.1.snoc rfl)⟩
    rintro _ ⟨⟩
    exact ⟨.userCredentials, e, rfl, by simp⟩
  | some client => exact h.1.hasChosen _

end Selector

/-! Handling an item -/

def WorkItem.Permits (item : WorkItem) (log : Log) (query : Task.Query) : Prop :=
  Task.MayChoose log query ∨ ∃ chosen : Log, chosen.Choosing ∧ item.MayAsk chosen log query

theorem WorkItem.Permits.cases {item : WorkItem} {log : Log} {query : Task.Query}
    (h : item.Permits log query) :
    query.hasEffect = false ∨ item.Owns (listedIds log.pages) query ∨
      ∃ time chosen, query = .store (item.mark time) ∧ item.Entered chosen log ∧ log.Harmless := by
  obtain ⟨-, hchoice⟩ | ⟨chosen, -, hasks⟩ := h
  · exact .inl (Task.Query.not_hasEffect_of_isChoice hchoice)
  cases hasks with
  | look => cases item <;> exact .inl rfl
  | probe => exact .inl rfl
  | work _ howned => exact .inr (.inl howned)
  | mark time hentered hharmless => exact .inr (.inr ⟨time, chosen, rfl, hentered, hharmless⟩)

theorem Engine.handle_ensures {engine : Engine} {item : WorkItem} :
    Program.Ensures Task.Proper item.Permits (fun _ _ => True) [] (engine.handle item) := by
  have hfind : Program.Ensures Task.Proper item.Permits Task.HasChosen []
      engine.selector.find :=
    (Selector.find_ensures (List.forall_mem_nil _)).mono (fun _ _ => id) (fun _ _ => .inl)
      fun _ _ => id
  refine hfind.bind (fun chosen client? hchosen => ?_) fun _ _ _ => trivial
  cases client? with
  | none => trivial
  | some client =>
    exact (sync_ensures hchosen.1.harmless).mono (fun _ _ => id)
      (fun _ _ hasks => .inr ⟨chosen, hchosen.1, hasks⟩) fun _ _ _ => trivial

end ReleaseTracker
