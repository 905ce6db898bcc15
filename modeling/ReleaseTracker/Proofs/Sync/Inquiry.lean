import ReleaseTracker.Proofs.Sync.Replies

/-! Parts of work that only ask GitHub and the clock. An inquiry ends at the first call that fails.
Twins ask the same calls and end alike when the calls are answered the same way, whatever the clock
shows to each of them. -/

namespace ReleaseTracker
open GitHub (ApiCall)
open Program

def GitHub.ApiCall.isListing : ApiCall → Bool
  | .remainingCalls | .starredPage _ _ _ | .hasTags _ | .allTags _ => true
  | _ => false

namespace Work
variable {α β γ δ σ τ : Type} {s s₁ : σ} {u u₁ : τ} {log log' : Log}

inductive Inquiry (asks : ApiCall → Prop) (fails : ApiCall → α → Prop) (succeeds : α → Prop) :
    Work α → Prop
  | done {a : α} (success : succeeds a) : Inquiry asks fails succeeds (.done a)
  | github {identity : Identity} {call : ApiCall} {next : Except ApiError call.Result → Work α}
      (asked : asks call) (failure : ∀ e, ∃ a, next (.error e) = .done a ∧ fails call a)
      (rest : ∀ value, Inquiry asks fails succeeds (next (.ok value))) :
      Inquiry asks fails succeeds ((github identity call).bind next)
  | clock {next : Instant → Work α} (rest : ∀ now, Inquiry asks fails succeeds (next now)) :
      Inquiry asks fails succeeds (Work.clock.bind next)

variable {asks : ApiCall → Prop} {fails : ApiCall → α → Prop} {fails' : ApiCall → β → Prop}
  {succeeds : α → Prop} {succeeds' : β → Prop}

theorem Inquiry.bind {p : Work α} {f : α → Work β} (h : Inquiry asks fails succeeds p)
    (hfailed : ∀ call a, fails call a → ∃ b, f a = .done b ∧ fails' call b)
    (hrest : ∀ a, succeeds a → Inquiry asks fails' succeeds' (f a)) :
    Inquiry asks fails' succeeds' (p.bind f) := by
  induction h with
  | done hsuccess => exact hrest _ hsuccess
  | github hasked hfailure _ ih =>
    rw [bind_assoc]
    refine .github hasked (fun e => ?_) ih
    obtain ⟨a, hdone, ha⟩ := hfailure e
    rw [hdone]
    exact hfailed _ a ha
  | clock _ ih =>
    rw [bind_assoc]
    exact .clock ih

theorem Inquiry.runs {conduct : Conduct Task σ} {p : Work α} {result : Except Fault α}
    (h : Inquiry asks fails succeeds p) (hrun : p.Runs conduct s log result s₁) :
    log.Inquiring ∧ (∀ identity call, (identity, call) ∈ log.requests → asks call) ∧
      ∃ a, result = .ok a ∧
        ((log.Unfailing ∧ succeeds a) ∨ ∃ call, log.FailedLast call ∧ fails call a) := by
  induction h generalizing s log with
  | done hsuccess =>
    obtain ⟨rfl, rfl, rfl⟩ := runs_done_iff.mp hrun
    exact ⟨.nil, by simp, _, rfl, .inl ⟨.nil, hsuccess⟩⟩
  | @github identity call next hasked hfailure _ ih =>
    obtain ⟨answer, mid, rest, -, hrest, rfl⟩ := runs_ask_iff.mp hrun
    change Except ApiError call.Result at answer
    cases answer with
    | error e =>
      -- nothing is asked after a call that failed
      obtain ⟨a, hdone, ha⟩ := hfailure e
      rw [done_bind, hdone] at hrest
      obtain ⟨rfl, rfl, rfl⟩ := runs_done_iff.mp hrest
      refine ⟨.cons .nil rfl, by simp [hasked], a, rfl, .inr ⟨call, ?_, ha⟩⟩
      exact ⟨[], identity, e, rfl, .nil⟩
    | ok value =>
      obtain ⟨hinquiring, hasks, a, rfl, hend⟩ := ih value hrest
      refine ⟨hinquiring.cons rfl, ?_, a, rfl, hend.imp ?_ ?_⟩
      · intro identity call hmem
        rcases List.mem_cons.mp hmem with heq | hmem
        · cases heq
          exact hasked
        · exact hasks identity call hmem
      · exact And.imp_left (.cons_ok value)
      · exact fun ⟨last, hlast, ha⟩ => ⟨last, hlast.append (.cons_ok value .nil), ha⟩
  | clock _ ih =>
    obtain ⟨now, mid, rest, -, hrest, rfl⟩ := runs_ask_iff.mp hrun
    obtain ⟨hinquiring, hasks, a, rfl, hend⟩ := ih now hrest
    refine ⟨hinquiring.cons rfl, by simpa using hasks, a, rfl, hend.imp ?_ ?_⟩
    · exact And.imp_left (.cons_other rfl)
    · exact fun ⟨last, hlast, ha⟩ => ⟨last, hlast.append (.cons_other rfl .nil), ha⟩

theorem eq_of_inquiring {rule : StoreRule} {p : Work α} {t t' : Tables} {result : Except Fault α}
    (hrun : p.Runs rule.conduct t log result t') (h : log.Inquiring) : t' = t := by
  induction hrun with
  | done a t => rfl
  | stop e t => rfl
  | @ask query _ _ _ _ _ _ _ answered _ ih =>
    obtain ⟨hquery, hrest⟩ := List.forall_mem_cons.mp h
    cases query with
    | github | clock => exact (ih hrest).trans answered
    | _ => cases hquery

/-! Twins -/

inductive Twins (near : Instant → Instant → Prop) (related : α → β → Prop) : Work α → Work β → Prop
  | done {a : α} {b : β} (same : related a b) : Twins near related (.done a) (.done b)
  | github {identity : Identity} {call : ApiCall} {next : Except ApiError call.Result → Work α}
      {next' : Except ApiError call.Result → Work β}
      (rest : ∀ answer, Twins near related (next answer) (next' answer)) :
      Twins near related ((github identity call).bind next) ((github identity call).bind next')
  | clock {next : Instant → Work α} {next' : Instant → Work β}
      (rest : ∀ now now', near now now' → Twins near related (next now) (next' now')) :
      Twins near related (Work.clock.bind next) (Work.clock.bind next')

variable {near : Instant → Instant → Prop} {related : α → β → Prop} {related' : γ → δ → Prop}

theorem Twins.bind {p : Work α} {p' : Work β} {f : α → Work γ} {f' : β → Work δ}
    (h : Twins near related p p')
    (hrest : ∀ a b, related a b → Twins near related' (f a) (f' b)) :
    Twins near related' (p.bind f) (p'.bind f') := by
  induction h with
  | done hsame => exact hrest _ _ hsame
  | github _ ih =>
    rw [bind_assoc, bind_assoc]
    exact .github ih
  | clock _ ih =>
    rw [bind_assoc, bind_assoc]
    exact .clock ih

theorem Twins.runs {conduct : Conduct Task σ} {conduct' : Conduct Task τ} {p : Work α} {p' : Work β}
    {result : Except Fault α} {result' : Except Fault β} {replies : GitHub.Replies}
    {earlier : List (Identity × ApiCall)} (h : Twins near related p p')
    (hrun : p.Runs conduct s log result s₁) (hrun' : p'.Runs conduct' u log' result' u₁)
    (hreplied : log.RepliedBy replies earlier) (hreplied' : log'.RepliedBy replies earlier)
    (hnear : ∀ now now', ⟨.clock, now⟩ ∈ log → ⟨.clock, now'⟩ ∈ log' → near now now') :
    log.requests = log'.requests ∧ ∃ a b, result = .ok a ∧ result' = .ok b ∧ related a b := by
  induction h generalizing s u log log' earlier with
  | done hsame =>
    obtain ⟨rfl, rfl, rfl⟩ := runs_done_iff.mp hrun
    obtain ⟨rfl, rfl, rfl⟩ := runs_done_iff.mp hrun'
    exact ⟨rfl, _, _, rfl, rfl, hsame⟩
  | @github identity call next next' _ ih =>
    obtain ⟨answer, mid, rest, -, hrest, rfl⟩ := runs_ask_iff.mp hrun
    obtain ⟨answer', mid', rest', -, hrest', rfl⟩ := runs_ask_iff.mp hrun'
    obtain ⟨rfl, hlater⟩ := Log.repliedBy_github.mp hreplied
    obtain ⟨rfl, hlater'⟩ := Log.repliedBy_github.mp hreplied'
    obtain ⟨hrequests, hend⟩ := ih _ hrest hrest' hlater hlater' fun now now' h h' =>
      hnear now now' (List.mem_cons_of_mem _ h) (List.mem_cons_of_mem _ h')
    exact ⟨by simp [hrequests], hend⟩
  | clock _ ih =>
    obtain ⟨now, mid, rest, -, hrest, rfl⟩ := runs_ask_iff.mp hrun
    obtain ⟨now', mid', rest', -, hrest', rfl⟩ := runs_ask_iff.mp hrun'
    have hnow : near now now' := hnear now now' List.mem_cons_self List.mem_cons_self
    obtain ⟨hrequests, hend⟩ :=
      ih now now' hnow hrest hrest' hreplied hreplied' fun now now' h h' =>
        hnear now now' (List.mem_cons_of_mem _ h) (List.mem_cons_of_mem _ h')
    exact ⟨by simp [hrequests], hend⟩

/-! Asking for the calls left -/

theorem probe_inquiry {identity : Identity} : (probe identity).Inquiry
    (fun call => call.isListing = true) (fun _ quota => quota = .unavailable) (fun _ => True) :=
  .github rfl (fun _ => ⟨_, rfl, rfl⟩) fun _ => .done trivial

theorem probe_twins {identity : Identity} : Twins near Eq (probe identity) (probe identity) := by
  refine .github fun answer => ?_
  cases answer <;> exact .done rfl

end Work
end ReleaseTracker
