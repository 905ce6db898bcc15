import ReleaseTracker.Proofs.Sync.Surroundings

/-! What a log shows: the calls on GitHub, the batches and the look-ups that the store was asked
for. GitHub may answer a call by all the calls before it. -/

namespace ReleaseTracker
open GitHub (ApiCall)

abbrev GitHub.Replies :=
  List (Identity × ApiCall) → Identity → (call : ApiCall) → Except ApiError call.Result

def Task.Query.isInquiry : Task.Query → Bool
  | .github _ _ | .clock => true
  | _ => false

namespace Log
variable {log log' first rest : Log} {replies : GitHub.Replies} {facts : GitHub.Facts}
  {earlier : List (Identity × ApiCall)}

@[simp] def request? : Answered Task → Option (Identity × ApiCall)
  | ⟨.github identity call, _⟩ => some (identity, call)
  | _ => none

def requests (log : Log) : List (Identity × ApiCall) := log.filterMap request?

@[simp] def batch? : Answered Task → Option (List Version)
  | ⟨.store (.createVersions rows), _⟩ => some rows
  | _ => none

def batches (log : Log) : List (List Version) := log.filterMap batch?

@[simp] def lookup? : Answered Task → Option String
  | ⟨.store (.findExistingVersion _ tagName), _⟩ => some tagName
  | _ => none

def lookups (log : Log) : List String := log.filterMap lookup?

def inquiries (log : Log) : Log := log.filter (·.query.isInquiry)

def Inquiring (log : Log) : Prop := ∀ event ∈ log, event.query.isInquiry = true

@[simp] theorem requests_nil : requests [] = [] := rfl

@[simp] theorem requests_cons (event : Answered Task) (log : Log) :
    requests (event :: log) = (request? event).toList ++ log.requests := by
  unfold requests
  rw [List.filterMap_cons]
  cases request? event <;> rfl

@[simp] theorem requests_append (first rest : Log) :
    requests (first ++ rest) = first.requests ++ rest.requests := List.filterMap_append

@[simp] theorem batches_nil : batches [] = [] := rfl

@[simp] theorem batches_cons (event : Answered Task) (log : Log) :
    batches (event :: log) = (batch? event).toList ++ log.batches := by
  unfold batches
  rw [List.filterMap_cons]
  cases batch? event <;> rfl

@[simp] theorem batches_append (first rest : Log) :
    batches (first ++ rest) = first.batches ++ rest.batches := List.filterMap_append

@[simp] theorem lookups_nil : lookups [] = [] := rfl

@[simp] theorem lookups_cons (event : Answered Task) (log : Log) :
    lookups (event :: log) = (lookup? event).toList ++ log.lookups := by
  unfold lookups
  rw [List.filterMap_cons]
  cases lookup? event <;> rfl

@[simp] theorem lookups_append (first rest : Log) :
    lookups (first ++ rest) = first.lookups ++ rest.lookups := List.filterMap_append

/-! Questions to GitHub and the clock -/

theorem Inquiring.nil : Inquiring [] := List.forall_mem_nil _

theorem Inquiring.cons {event : Answered Task} (h : log.Inquiring)
    (hevent : event.query.isInquiry = true) : Inquiring (event :: log) :=
  List.forall_mem_cons.mpr ⟨hevent, h⟩

@[simp] theorem inquiries_append (first rest : Log) :
    inquiries (first ++ rest) = first.inquiries ++ rest.inquiries := List.filter_append _ _

@[simp] theorem inquiries_store (call : StoreCall) (answer : Except StoreError call.Result)
    (log : Log) : inquiries (⟨.store call, answer⟩ :: log) = log.inquiries := rfl

@[simp] theorem inquiries_announce (repoIds : List Int) (accepted : Bool) (log : Log) :
    inquiries (⟨.announce repoIds, accepted⟩ :: log) = log.inquiries := rfl

theorem Inquiring.inquiries (h : log.Inquiring) : log.inquiries = log :=
  List.filter_eq_self.mpr h

theorem inquiries_subset (log : Log) : log.inquiries ⊆ log := List.filter_sublist.subset

theorem Inquiring.filterMap_eq_nil {α : Type} {view : Answered Task → Option α}
    (h : log.Inquiring)
    (hgithub : ∀ identity call answer, view ⟨.github identity call, answer⟩ = none)
    (hclock : ∀ now, view ⟨.clock, now⟩ = none) : log.filterMap view = [] := by
  refine List.filterMap_eq_nil_iff.mpr fun event hevent => ?_
  have hquery := h event hevent
  obtain ⟨query, answer⟩ := event
  cases query with
  | github identity call => exact hgithub identity call answer
  | clock => exact hclock answer
  | _ => cases hquery

theorem Inquiring.announcements (h : log.Inquiring) : log.announcements = [] :=
  h.filterMap_eq_nil (fun _ _ _ => rfl) fun _ => rfl

theorem Inquiring.batches (h : log.Inquiring) : log.batches = [] :=
  h.filterMap_eq_nil (fun _ _ _ => rfl) fun _ => rfl

theorem Inquiring.lookups (h : log.Inquiring) : log.lookups = [] :=
  h.filterMap_eq_nil (fun _ _ _ => rfl) fun _ => rfl

/-! Failures -/

theorem Unfailing.nil : Unfailing [] := fun _ _ _ h => by cases h

theorem Unfailing.cons_ok {identity : Identity} {call : ApiCall} (value : call.Result)
    (h : log.Unfailing) : Unfailing (⟨.github identity call, Except.ok value⟩ :: log) := by
  intro identity' call' answer hmem
  rcases List.mem_cons.mp hmem with heq | hmem
  · cases heq
    exact ⟨value, rfl⟩
  · exact h identity' call' answer hmem

theorem Unfailing.cons_other {event : Answered Task} (hevent : request? event = none)
    (h : log.Unfailing) : Unfailing (event :: log) := by
  intro identity call answer hmem
  rcases List.mem_cons.mp hmem with rfl | hmem
  · cases hevent
  · exact h identity call answer hmem

theorem mem_requests {identity : Identity} {call : ApiCall} {answer : Except ApiError call.Result}
    (h : ⟨.github identity call, answer⟩ ∈ log) : (identity, call) ∈ log.requests :=
  List.mem_filterMap.mpr ⟨_, h, rfl⟩

theorem Unfailing.not_mem {identity : Identity} {call : ApiCall} {e : ApiError}
    (h : log.Unfailing) : ⟨.github identity call, Except.error e⟩ ∉ log := by
  intro hmem
  obtain ⟨value, hvalue⟩ := h _ _ _ hmem
  cases hvalue

theorem Unfailing.of_requests (h : log.requests = []) : log.Unfailing := by
  intro identity call answer hmem
  have hasked := mem_requests hmem
  rw [h] at hasked
  cases hasked

theorem Unfailing.append (h : first.Unfailing) (h' : rest.Unfailing) :
    Unfailing (first ++ rest) := fun identity call answer hmem =>
  (List.mem_append.mp hmem).elim (h identity call answer) (h' identity call answer)

def FailedLast (log : Log) (call : ApiCall) : Prop :=
  ∃ before identity e, log = before ++ [⟨.github identity call, Except.error e⟩] ∧
    Unfailing before

theorem FailedLast.not_unfailing {call : ApiCall} (h : log.FailedLast call) : ¬ log.Unfailing := by
  obtain ⟨before, identity, e, rfl, -⟩ := h
  exact fun hlog => hlog.not_mem (List.mem_append_right before List.mem_cons_self)

theorem FailedLast.append {call : ApiCall} (h : rest.FailedLast call) (hfirst : first.Unfailing) :
    FailedLast (first ++ rest) call := by
  obtain ⟨before, identity, e, rfl, hbefore⟩ := h
  exact ⟨first ++ before, identity, e, (List.append_assoc ..).symm, hfirst.append hbefore⟩

/-! Replies -/

/-- GitHub gave the replies, after some calls before the log. -/
def RepliedBy (replies : GitHub.Replies) : List (Identity × ApiCall) → Log → Prop
  | _, [] => True
  | earlier, ⟨.github identity call, answer⟩ :: log =>
    answer = replies earlier identity call ∧ RepliedBy replies (earlier ++ [(identity, call)]) log
  | earlier, _ :: log => RepliedBy replies earlier log

@[simp] theorem repliedBy_github {identity : Identity} {call : ApiCall}
    {answer : Except ApiError call.Result} :
    RepliedBy replies earlier (⟨.github identity call, answer⟩ :: log) ↔
      answer = replies earlier identity call ∧
        log.RepliedBy replies (earlier ++ [(identity, call)]) := Iff.rfl

theorem repliedBy_cons {event : Answered Task} (h : request? event = none) :
    RepliedBy replies earlier (event :: log) ↔ log.RepliedBy replies earlier := by
  obtain ⟨query, answer⟩ := event
  cases query with
  | github identity call => cases h
  | _ => rfl

theorem repliedBy_append :
    RepliedBy replies earlier (first ++ rest) ↔
      first.RepliedBy replies earlier ∧ rest.RepliedBy replies (earlier ++ first.requests) := by
  induction first generalizing earlier with
  | nil => simp [RepliedBy]
  | cons event first ih =>
    obtain ⟨query, answer⟩ := event
    cases query with
    | github identity call =>
      rw [List.cons_append, repliedBy_github, repliedBy_github, ih, requests_cons, and_assoc]
      simp
    | _ => exact ih

theorem repliedBy_inquiries :
    log.inquiries.RepliedBy replies earlier ↔ log.RepliedBy replies earlier := by
  induction log generalizing earlier with
  | nil => rfl
  | cons event log ih =>
    obtain ⟨query, answer⟩ := event
    cases query with
    | github identity call => exact and_congr_right fun _ => ih
    | _ => exact ih

theorem requests_inquiries (log : Log) : log.inquiries.requests = log.requests := by
  induction log with
  | nil => rfl
  | cons event log ih =>
    obtain ⟨query, answer⟩ := event
    cases query with
    | github identity call => exact congrArg ((identity, call) :: ·) ih
    | _ => exact ih

theorem requests_eq_nil (h : log.inquiries = []) : log.requests = [] := by
  rw [← requests_inquiries, h, requests_nil]

/-- A GitHub that keeps to facts replies by other facts, if they tell the same as far as it was
asked. -/
theorem ToldBy.repliedBy {facts' : GitHub.Facts} (h : log.ToldBy facts)
    (hsame : ∀ identity call, (identity, call) ∈ log.requests → facts call = facts' call) :
    log.RepliedBy (fun _ _ call => facts' call) earlier := by
  induction log generalizing earlier with
  | nil => trivial
  | cons event log ih =>
    have hrest (earlier) : RepliedBy (fun _ _ call => facts' call) earlier log :=
      ih (h.mono (List.subset_cons_self _ _)) fun identity call hasked =>
        hsame identity call (requests_cons event log ▸ List.mem_append_right _ hasked)
    obtain ⟨query, answer⟩ := event
    cases query with
    | github identity call =>
      have hanswer := h identity call answer List.mem_cons_self
      exact ⟨hanswer.trans (hsame identity call (by simp)), hrest _⟩
    | _ => exact hrest earlier

end Log

namespace Surroundings
variable {α : Type} {replies : GitHub.Replies} {now : Instant}

/-- A reliable store, a GitHub that heeds all that it was asked before, a clock that stands, and a
hub that takes everything. -/
def heeding (replies : GitHub.Replies) (now : Instant) :
    Surroundings StoreRule.reliable (Tables × List (Identity × ApiCall)) where
  answer
    | .store call, (t, asked) => (.ok (t.perform now call).1, (t.perform now call).2, asked)
    | .github identity call, (t, asked) =>
      (.ok (replies asked identity call), t, asked ++ [(identity, call)])
    | .authenticate _, s => (.ok true, s)
    | .clock, s => (.ok now, s)
    | .announce _, s => (.ok true, s)
  tables := Prod.fst
  answers query s := by
    cases query with
    | store call => exact ⟨_, _, rfl, now, rfl⟩
    | _ => exact ⟨_, _, rfl, rfl⟩

theorem heeding_repliedBy (work : Work α) (s : Tables × List (Identity × ApiCall)) :
    ((heeding replies now).transcript work s).RepliedBy replies s.2 := by
  induction work generalizing s with
  | done a | stop e => trivial
  | ask query next ih =>
    cases query with
    | github identity call => exact ⟨rfl, ih _ (s.1, s.2 ++ [(identity, call)])⟩
    | store call => exact ih _ ((s.1.perform now call).2, s.2)
    | _ => exact ih _ s

end Surroundings
end ReleaseTracker
