import Mathlib.Data.List.Sort
import ReleaseTracker.Credential.Selector
import ReleaseTracker.Proofs.Store.Keys
import ReleaseTracker.Proofs.Sync.Surroundings

/-! The choice of an identity. The candidates are tried in order until one has enough calls left
(`Searched`). The first part of the trials is that of the application, and the users are only read
when it has ended without a choice (`Selector.Conducts`). -/

namespace ReleaseTracker
open Program StoreRule

/-! Trials -/

structure Candidate where
  credential : Credential
  identity : Identity
  threshold : Nat

structure Trial where
  candidate : Candidate
  answer? : Option (Except ApiError Nat)

namespace Trial

def log : Trial → Log
  | ⟨candidate, none⟩ => [⟨.authenticate candidate.credential, false⟩]
  | ⟨candidate, some answer⟩ =>
    [⟨.authenticate candidate.credential, true⟩,
      ⟨.github candidate.credential.identity .remainingCalls, answer⟩]

def client? : Trial → Option SelectedClient
  | ⟨candidate, some (.ok calls)⟩ =>
    if candidate.threshold ≤ calls then some ⟨candidate.identity, .remaining calls⟩
    else none
  | ⟨_, some (.error _)⟩ | ⟨_, none⟩ => none

end Trial

structure Searched (candidates : List Candidate) (tried : List Trial)
    (client? : Option SelectedClient) : Prop where
  ordered : tried.map (·.candidate) <+: candidates
  beaten : ∀ trial ∈ tried.dropLast, trial.client? = none
  found : client? = tried.findSome? Trial.client?
  exhausted : client? = none → tried.map (·.candidate) = candidates

namespace Searched
variable {candidates : List Candidate} {trial : Trial} {tried : List Trial}
  {client? : Option SelectedClient}

theorem nil : Searched [] [] none := ⟨List.prefix_rfl, nofun, rfl, fun _ => rfl⟩

theorem won {client : SelectedClient} (h : trial.client? = some client) :
    Searched (trial.candidate :: candidates) [trial] (some client) where
  ordered := List.prefix_append [_] candidates
  beaten := nofun
  found := by rw [List.findSome?_cons, h]
  exhausted := nofun

theorem lost (h : trial.client? = none) (hrest : Searched candidates tried client?) :
    Searched (trial.candidate :: candidates) (trial :: tried) client? where
  ordered := (List.prefix_cons_inj _).mpr hrest.ordered
  beaten := by
    cases tried with
    | nil => exact nofun
    | cons next tried => exact List.forall_mem_cons.mpr ⟨h, hrest.beaten⟩
  found := by
    rw [List.findSome?_cons, h]
    exact hrest.found
  exhausted hclient := congrArg (trial.candidate :: ·) (hrest.exhausted hclient)

theorem extend {client : SelectedClient} (h : Searched candidates tried (some client))
    (more : List Candidate) : Searched (candidates ++ more) tried (some client) where
  ordered := h.ordered.trans (List.prefix_append _ _)
  beaten := h.beaten
  found := h.found
  exhausted := nofun

theorem all_lost (h : Searched candidates tried none) : ∀ trial ∈ tried, trial.client? = none :=
  List.findSome?_eq_none_iff.mp h.found.symm

theorem append {more : List Candidate} {later : List Trial} (h : Searched candidates tried none)
    (hlater : Searched more later client?) :
    Searched (candidates ++ more) (tried ++ later) client? := by
  have hlost := h.all_lost
  have hall := h.exhausted rfl
  clear h
  induction tried generalizing candidates with
  | nil =>
    obtain rfl : [] = candidates := hall
    exact hlater
  | cons trial tried ih =>
    obtain ⟨hfirst, hrest⟩ := List.forall_mem_cons.mp hlost
    cases candidates with
    | nil => cases hall
    | cons candidate candidates =>
      obtain ⟨rfl, htried⟩ := List.cons.inj hall
      exact .lost hfirst (ih hrest htried)

/-- Where each candidate has its own answer, the choice is that of the first candidate whose answer
is good enough. -/
theorem eq_findSome? (h : Searched candidates tried client?)
    {answer? : Candidate → Option (Except ApiError Nat)}
    (hanswers : ∀ trial ∈ tried, trial.answer? = answer? trial.candidate) :
    client? = candidates.findSome? fun candidate =>
      (Trial.mk candidate (answer? candidate)).client? := by
  have hsame : tried.findSome? Trial.client? = (tried.map (·.candidate)).findSome? fun candidate =>
      (Trial.mk candidate (answer? candidate)).client? := by
    have htried : tried =
        tried.map fun trial => Trial.mk trial.candidate (answer? trial.candidate) := by
      refine (List.map_id tried).symm.trans (List.map_congr_left fun trial htrial => ?_)
      rw [← hanswers trial htrial]
      rfl
    conv_lhs => rw [htried]
    rw [List.findSome?_map, List.findSome?_map]
    rfl
  obtain ⟨rest, hrest⟩ := h.ordered
  cases hclient : client? with
  | none => rw [← h.exhausted hclient, ← hsame, ← h.found, hclient]
  | some client =>
    have hfound : (tried.map (·.candidate)).findSome? (fun candidate =>
        (Trial.mk candidate (answer? candidate)).client?) = some client := by
      rw [← hsame, ← h.found, hclient]
    rw [← hrest, List.findSome?_append, hfound, Option.some_or]

end Searched

/-! Runs -/

section Runs
variable {rule : StoreRule} {t t' : Tables} {log : Log}
  {result : Except Fault (Option SelectedClient)}

namespace Selector

theorem consider_runs (candidate : Candidate)
    (hrun : (consider candidate.credential candidate.identity candidate.threshold).Runs
      rule.conduct t log result t') :
    ∃ trial : Trial, trial.candidate = candidate ∧ log = trial.log ∧ result = .ok trial.client? ∧
      t' = t := by
  obtain ⟨authentic, mid, rest, rfl, hrest, rfl⟩ := runs_ask_iff.mp hrun
  change Bool at authentic
  cases authentic with
  | false =>
    obtain ⟨rfl, rfl, rfl⟩ := runs_done_iff.mp hrest
    exact ⟨⟨candidate, none⟩, rfl, rfl, rfl, rfl⟩
  | true =>
    obtain ⟨answer, last, hlast, rfl⟩ := Work.runs_probe_bind_iff.mp hrest
    obtain ⟨rfl, rfl, rfl⟩ := runs_done_iff.mp hlast
    refine ⟨⟨candidate, some answer⟩, rfl, rfl, ?_, rfl⟩
    cases answer with
    | ok calls => simp [Trial.client?, Work.quotaOf, Quota.atLeast]
    | error e => rfl

def userCandidates (selector : Selector) (users : List UserCredential) : List Candidate :=
  users.map fun user => ⟨.user user, (Credential.user user).identity, selector.userThreshold⟩

def appCandidates (selector : Selector) : List Candidate :=
  selector.app.toList.map fun credential => ⟨credential, .app, selector.appThreshold⟩

def candidates (selector : Selector) (users : List UserCredential) : List Candidate :=
  selector.appCandidates ++ selector.userCandidates users

variable {selector : Selector}

theorem firstOf_runs {users : List UserCredential}
    (hrun : (firstOf selector.userThreshold users).Runs rule.conduct t log result t') :
    ∃ tried client?, Searched (selector.userCandidates users) tried client? ∧
      log = tried.flatMap Trial.log ∧ result = .ok client? ∧ t' = t := by
  induction users generalizing t log with
  | nil =>
    obtain ⟨rfl, rfl, rfl⟩ := runs_done_iff.mp hrun
    exact ⟨[], none, .nil, rfl, rfl, rfl⟩
  | cons user users ih =>
    obtain ⟨e, hfirst, -⟩ | ⟨client?, mid, first, rest, hfirst, hrest, rfl⟩ :=
      runs_bind_iff.mp hrun
    · obtain ⟨trial, -, -, hresult, -⟩ :=
        consider_runs ⟨.user user, _, selector.userThreshold⟩ hfirst
      cases hresult
    obtain ⟨trial, hcandidate, rfl, hresult, rfl⟩ :=
      consider_runs ⟨.user user, _, selector.userThreshold⟩ hfirst
    have hcons : selector.userCandidates (user :: users) =
        trial.candidate :: selector.userCandidates users := by
      rw [hcandidate]
      rfl
    obtain rfl := Except.ok.inj hresult
    cases hclient : trial.client? with
    | some client =>
      rw [hclient] at hrest
      obtain ⟨rfl, rfl, rfl⟩ := runs_done_iff.mp hrest
      refine ⟨[trial], some client, ?_, by simp, rfl, rfl⟩
      rw [hcons]
      exact .won hclient
    | none =>
      rw [hclient] at hrest
      obtain ⟨tried, client?, hsearched, rfl, rfl, rfl⟩ := ih hrest
      refine ⟨trial :: tried, client?, ?_, by simp, rfl, rfl⟩
      rw [hcons]
      exact hsearched.lost hclient

theorem considerApp_runs (hrun : selector.considerApp.Runs rule.conduct t log result t') :
    ∃ tried client?, Searched selector.appCandidates tried client? ∧
      log = tried.flatMap Trial.log ∧ result = .ok client? ∧ t' = t := by
  unfold considerApp at hrun
  unfold appCandidates
  cases happ : selector.app with
  | none =>
    rw [happ] at hrun
    obtain ⟨rfl, rfl, rfl⟩ := runs_done_iff.mp hrun
    exact ⟨[], none, .nil, rfl, rfl, rfl⟩
  | some credential =>
    rw [happ] at hrun
    obtain ⟨trial, hcandidate, rfl, rfl, rfl⟩ :=
      consider_runs ⟨credential, .app, selector.appThreshold⟩ hrun
    refine ⟨[trial], trial.client?, ?_, by simp, rfl, rfl⟩
    rw [Option.toList_some, List.map_singleton, ← hcandidate]
    cases hclient : trial.client? with
    | some client => exact .won hclient
    | none => exact .lost hclient .nil

/-- How an identity is chosen: `tried` are the trials, and `read` is the read of the users, if there
is one. -/
structure Conducts (selector : Selector) (users : List UserCredential)
    (result : Except Fault (Option SelectedClient)) (tried : List Trial) (read : Log) : Prop where
  /-- The candidates are tried in order, each at most once. -/
  ordered : tried.map (·.candidate) <+: selector.candidates users
  /-- Nobody is tried after the first choice. -/
  beaten : ∀ trial ∈ tried.dropLast, trial.client? = none
  /-- The users are not read exactly if the application is chosen. -/
  unread : read = [] ↔
    ∃ trial ∈ tried.take selector.appCandidates.length, trial.client?.isSome
  chosen : ∀ client?, result = .ok client? → client? = tried.findSome? Trial.client? ∧
    (client? = none → tried.map (·.candidate) = selector.candidates users) ∧
    (read = [] ∨ read = [⟨.store .userCredentials, Except.ok users⟩])
  /-- Only the read of the users fails, and then none of them is tried. -/
  failed : ∀ fault, result = .error fault → tried.map (·.candidate) = selector.appCandidates ∧
    ∃ e, fault = .store e ∧ read = [⟨.store .userCredentials, Except.error e⟩]

def events (selector : Selector) (tried : List Trial) (read : Log) : Log :=
  (tried.take selector.appCandidates.length).flatMap Trial.log ++
    (read ++ (tried.drop selector.appCandidates.length).flatMap Trial.log)

section Conduct
variable {users : List UserCredential} {tried later : List Trial} {client? : Option SelectedClient}

theorem length_le (h : Searched selector.appCandidates tried client?) :
    tried.length ≤ selector.appCandidates.length := by
  simpa using h.ordered.length_le

theorem conducts_app {client : SelectedClient}
    (h : Searched selector.appCandidates tried (some client)) :
    selector.Conducts users (.ok (some client)) tried [] := by
  have hextended := h.extend (selector.userCandidates users)
  obtain ⟨trial, htrial, hclient⟩ := List.exists_of_findSome?_eq_some h.found.symm
  refine ⟨hextended.ordered, hextended.beaten, ?_, ?_, nofun⟩
  · rw [List.take_of_length_le (length_le h)]
    exact ⟨fun _ => ⟨trial, htrial, by rw [hclient]; rfl⟩, fun _ => rfl⟩
  · rintro _ ⟨⟩
    exact ⟨hextended.found, hextended.exhausted, .inl rfl⟩

theorem events_app (h : Searched selector.appCandidates tried client?) :
    selector.events tried [] = tried.flatMap Trial.log := by
  rw [events, List.take_of_length_le (length_le h), List.drop_of_length_le (length_le h)]
  simp

theorem length_eq (h : Searched selector.appCandidates tried none) :
    tried.length = selector.appCandidates.length := by
  rw [← h.exhausted rfl, List.length_map]

theorem events_append (h : Searched selector.appCandidates tried none) (read : Log)
    (later : List Trial) :
    selector.events (tried ++ later) read =
      tried.flatMap Trial.log ++ (read ++ later.flatMap Trial.log) := by
  rw [events, ← length_eq h, List.take_left, List.drop_left]

theorem read_iff (h : Searched selector.appCandidates tried none) {read : Log} (hread : read ≠ [])
    (later : List Trial) :
    read = [] ↔
      ∃ trial ∈ (tried ++ later).take selector.appCandidates.length, trial.client?.isSome := by
  rw [← length_eq h, List.take_left]
  refine ⟨fun hnone => absurd hnone hread, ?_⟩
  rintro ⟨trial, htrial, hsome⟩
  rw [h.all_lost trial htrial] at hsome
  cases hsome

theorem conducts_users (h : Searched selector.appCandidates tried none)
    (hlater : Searched (selector.userCandidates users) later client?) :
    selector.Conducts users (.ok client?) (tried ++ later)
      [⟨.store .userCredentials, Except.ok users⟩] := by
  have hall := h.append hlater
  refine ⟨hall.ordered, hall.beaten, read_iff h (List.cons_ne_nil _ _) _, ?_, nofun⟩
  rintro _ ⟨⟩
  exact ⟨hall.found, hall.exhausted, .inr rfl⟩

theorem conducts_failed (h : Searched selector.appCandidates tried none) (e : StoreError) :
    selector.Conducts users (.error (.store e)) tried
      [⟨.store .userCredentials, Except.error e⟩] := by
  have hread := read_iff h (List.cons_ne_nil
    (⟨.store .userCredentials, Except.error e⟩ : Answered Task) []) []
  rw [List.append_nil] at hread
  refine ⟨h.ordered.trans (List.prefix_append _ _), ?_, hread, nofun, ?_⟩
  · exact fun trial htrial => h.all_lost trial (List.dropLast_subset tried htrial)
  · rintro _ ⟨⟩
    exact ⟨h.exhausted rfl, e, rfl, rfl⟩

end Conduct

theorem mem_events {tried : List Trial} {read : Log} {trial : Trial} (htrial : trial ∈ tried)
    {event : Answered Task} (hevent : event ∈ trial.log) : event ∈ selector.events tried read := by
  rw [← List.take_append_drop selector.appCandidates.length tried] at htrial
  rcases List.mem_append.mp htrial with hfirst | hlater
  · exact List.mem_append_left _ (List.mem_flatMap.mpr ⟨trial, hfirst, hevent⟩)
  · exact List.mem_append_right _
      (List.mem_append_right _ (List.mem_flatMap.mpr ⟨trial, hlater, hevent⟩))

theorem nodup_candidates {users : List UserCredential} (husers : (users.map (·.userId)).Nodup)
    (happ : ∀ user, selector.app ≠ some (.user user)) :
    ((selector.candidates users).map (·.credential)).Nodup := by
  have hcredentials : (selector.candidates users).map (·.credential) =
      selector.app.toList ++ users.map Credential.user := by
    simp [candidates, appCandidates, userCandidates, Function.comp_def]
  rw [hcredentials]
  refine List.Nodup.append ?_ ?_ ?_
  · cases selector.app <;> simp
  · exact (husers.of_map _).map fun _ _ h => Credential.user.inj h
  · intro credential hfirst huser
    obtain ⟨user, -, rfl⟩ := List.mem_map.mp huser
    exact happ user (Option.mem_toList.mp hfirst)

theorem find_runs_conducts (hrun : selector.find.Runs fallible.conduct t log result t') :
    ∃ tried read, selector.Conducts t.credentials result tried read ∧
      log = selector.events tried read := by
  obtain ⟨e, happ, -⟩ | ⟨client?, mid, first, rest, happ, hrest, rfl⟩ := runs_bind_iff.mp hrun
  · obtain ⟨_, _, _, _, hresult, _⟩ := considerApp_runs happ
    cases hresult
  obtain ⟨tried, _, hsearched, rfl, hclient, rfl⟩ := considerApp_runs happ
  obtain rfl := Except.ok.inj hclient
  cases client? with
  | some client =>
    obtain ⟨rfl, rfl, rfl⟩ := runs_done_iff.mp hrest
    refine ⟨tried, [], conducts_app hsearched, ?_⟩
    rw [events_app hsearched, List.append_nil]
  | none =>
    obtain ⟨e, -, rfl, rfl⟩ | ⟨users, mid', later, hread, hfirst, rfl⟩ :=
      Work.runs_store_bind_iff.mp hrest
    · refine ⟨tried, _, conducts_failed hsearched e, ?_⟩
      have hlog := events_append hsearched [⟨.store .userCredentials, Except.error e⟩] []
      rw [List.append_nil, List.flatMap_nil, List.append_nil] at hlog
      exact hlog.symm
    · obtain ⟨now, hperform⟩ := fallible_ok_iff.mp hread
      obtain ⟨husers, rfl⟩ := Prod.mk.inj hperform
      obtain rfl := Except.ok.inj husers
      obtain ⟨others, client?, hothers, rfl, rfl, rfl⟩ := firstOf_runs hfirst
      refine ⟨tried ++ others, _, conducts_users hsearched hothers, ?_⟩
      have hlog := events_append hsearched
        [⟨.store .userCredentials, Except.ok t'.credentials⟩] others
      exact hlog.symm

end Selector
end Runs

def Selector.ofApp (app : Option (String × String)) (appThreshold userThreshold : Nat) : Selector :=
  ⟨app.map fun (clientId, clientSecret) => .app clientId clientSecret, appThreshold, userThreshold⟩

/-! The users -/

namespace Tables
variable {α : Type} {le : α → α → Bool}

theorem insertSorted_eq_orderedInsert (a : α) (xs : List α) :
    insertSorted le a xs = xs.orderedInsert (fun a b => le a b = true) a := by
  induction xs with
  | nil => rfl
  | cons x xs ih =>
    rw [insertSorted, List.orderedInsert_cons, ih]

theorem sortBy_eq_insertionSort (xs : List α) :
    sortBy le xs = xs.insertionSort (fun a b => le a b = true) := by
  induction xs with
  | nil => rfl
  | cons x xs ih => rw [sortBy, List.insertionSort_cons, ih, insertSorted_eq_orderedInsert]

/-- The tokens that may be used are those of the users that are not removed and have one, in
ascending order of the users. -/
structure Tokens (t : Tables) (users : List UserCredential) : Prop where
  perm : users.Perm
    ((t.users.filter fun user => !user.isRemoved && user.accessToken ≠ "").map User.credential)
  ascending : (users.map (·.userId)).Pairwise (· ≤ ·)
  nodup : t.Keyed → (users.map (·.userId)).Nodup

theorem tokens_credentials (t : Tables) : t.Tokens t.credentials := by
  let usable := t.users.filter fun user => !user.isRemoved && user.accessToken ≠ ""
  have hperm : t.credentials.Perm (usable.map User.credential) := by
    rw [credentials, sortBy_eq_insertionSort]
    exact (List.perm_insertionSort _ _).map _
  refine ⟨hperm, ?_, fun hkeyed => ?_⟩
  · rw [credentials, sortBy_eq_insertionSort, List.map_map]
    have hsorted := usable.pairwise_insertionSort fun a b => decide (a.id ≤ b.id) = true
    exact List.pairwise_map.mpr (hsorted.imp of_decide_eq_true)
  · have hids : (t.credentials.map (·.userId)).Perm (usable.map (·.id)) := by
      have hmap := hperm.map (·.userId)
      rwa [List.map_map] at hmap
    exact hids.nodup_iff.mpr (hkeyed.userIds.sublist (List.filter_sublist.map _))

end Tables

/-- With the application's credential, if there is one, the search for an identity finds the first
candidate that has enough calls left, and tries nobody else after it. -/
theorem find_searches {σ : Type} (w : Surroundings fallible σ) (app : Option (String × String))
    (appThreshold userThreshold : Nat) (s : σ) :
    let selector := Selector.ofApp app appThreshold userThreshold
    ∃ users tried read, (w.tables s).Tokens users ∧
      selector.Conducts users (w.run selector.find s).1 tried read ∧
      w.transcript selector.find s = selector.events tried read ∧
      ((w.tables s).Keyed → (tried.map (·.candidate.credential)).Nodup) ∧
      ∀ answer? : Candidate → Option (Except ApiError Nat),
        (∀ trial ∈ tried, trial.answer? = answer? trial.candidate) →
        ∀ client?, (w.run selector.find s).1 = .ok client? →
          client? = (selector.candidates users).findSome? fun candidate =>
            (Trial.mk candidate (answer? candidate)).client? := by
  intro selector
  have htokens := (w.tables s).tokens_credentials
  obtain ⟨tried, read, hconducts, hlog⟩ :=
    Selector.find_runs_conducts (w.runs selector.find s)
  refine ⟨_, tried, read, htokens, hconducts, hlog, fun hkeyed => ?_, ?_⟩
  · have happ : ∀ user, selector.app ≠ some (.user user) := by
      intro user huser
      obtain ⟨_, -, hcredential⟩ := Option.map_eq_some_iff.mp huser
      cases hcredential
    have hall := selector.nodup_candidates (htokens.nodup hkeyed) happ
    have hsublist := (hconducts.ordered.sublist.map (·.credential))
    rw [List.map_map] at hsublist
    exact hall.sublist hsublist
  · intro answer? hanswers client? hresult
    obtain ⟨hfound, hexhausted, -⟩ := hconducts.chosen client? hresult
    have hsearched : Searched (selector.candidates (w.tables s).credentials) tried client? :=
      ⟨hconducts.ordered, hconducts.beaten, hfound, hexhausted⟩
    exact hsearched.eq_findSome? hanswers

namespace Selector.Sample

def authentic : Credential → Bool
  | .app _ _ => true
  | .user credential => credential.userId ≠ 2

def calls : Identity → Except ApiError Nat
  | .app => .error (.transport "timeout")
  | .user userId _ => .ok (if userId = 1 then 1999 else 2000)

def answer? (candidate : Candidate) : Option (Except ApiError Nat) :=
  if authentic candidate.credential then some (calls candidate.credential.identity) else none

def world : Surroundings fallible Tables where
  answer
    | .store call, t => (.ok (t.perform ⟨0, 0⟩ call).1, (t.perform ⟨0, 0⟩ call).2)
    | .github identity .remainingCalls, t => (.ok (calls identity), t)
    | .github _ _, t => (.ok (Except.error (.transport "timeout")), t)
    | .authenticate credential, t => (.ok (authentic credential), t)
    | .clock, t => (.ok ⟨0, 0⟩, t)
    | .announce _, t => (.ok false, t)
  tables t := t
  answers query t := by
    cases query with
    | store call => exact ⟨_, _, rfl, .inl ⟨⟨0, 0⟩, rfl⟩⟩
    | github identity call => cases call <;> exact ⟨_, _, rfl, rfl⟩
    | _ => exact ⟨_, _, rfl, rfl⟩

def user (id : Int) (name token : String) : User :=
  ⟨id, name, none, none, token, .utc ⟨0, 0⟩, none⟩

def tables : Tables :=
  ⟨[user 4 "dave" "t4", user 1 "alice" "t1", user 3 "carol" "t3", user 0 "zoe" "",
    user 2 "bob" "t2"], [], [], []⟩

theorem keyed : tables.Keyed where
  userIds := by decide
  usernames := by decide
  repoIds := by decide
  stars := by decide
  starEnds := by decide
  versions := by decide
  versionRepos := by decide

theorem answer?_of_log {trial : Trial} (work : Work (Option SelectedClient))
    (h : ∀ event ∈ trial.log, event ∈ world.transcript work tables) :
    trial.answer? = answer? trial.candidate := by
  obtain ⟨candidate, answered?⟩ := trial
  unfold answer?
  cases answered? with
  | none =>
    obtain ⟨before, after, hanswer⟩ := answered_of_mem_transcript (h _ (List.mem_singleton_self _))
    have hauthentic : authentic candidate.credential = false :=
      Except.ok.inj (Prod.mk.inj hanswer).1
    rw [hauthentic]
    rfl
  | some answer =>
    obtain ⟨hfirst, hsecond⟩ := List.forall_mem_cons.mp h
    obtain ⟨before, after, hanswer⟩ := answered_of_mem_transcript hfirst
    have hauthentic : authentic candidate.credential = true :=
      Except.ok.inj (Prod.mk.inj hanswer).1
    obtain ⟨before, after, hanswer⟩ :=
      answered_of_mem_transcript (hsecond _ (List.mem_singleton_self _))
    have hcalls : calls candidate.credential.identity = answer :=
      Except.ok.inj (Prod.mk.inj hanswer).1
    rw [if_pos hauthentic, hcalls]

end Selector.Sample

/-- The application cannot be probed, one user has too few calls left, one cannot be authenticated,
and the next one is chosen. -/
theorem find_searches_third :
    let selector := Selector.ofApp (some ("id", "secret")) 0 2000
    let chosen : SelectedClient := ⟨.user 3 "carol", .remaining 2000⟩
    (Selector.Sample.world.run selector.find Selector.Sample.tables).1 = .ok (some chosen) ∧
    ∃ (users : List UserCredential) (tried : List Trial), Selector.Sample.tables.Tokens users ∧
      (tried.map (·.candidate.credential)).Nodup ∧
      some chosen = tried.findSome? Trial.client? ∧
      some chosen = (selector.candidates users).findSome? fun candidate =>
        (Trial.mk candidate (Selector.Sample.answer? candidate)).client? := by
  intro selector chosen
  have hresult : (Selector.Sample.world.run selector.find Selector.Sample.tables).1 =
      .ok (some chosen) := by decide +kernel
  obtain ⟨users, tried, read, htokens, hconducts, hlog, hnodup, hfirst⟩ :=
    find_searches Selector.Sample.world (some ("id", "secret")) 0 2000 Selector.Sample.tables
  have hanswers : ∀ trial ∈ tried, trial.answer? = Selector.Sample.answer? trial.candidate := by
    intro trial htrial
    refine Selector.Sample.answer?_of_log selector.find fun event hevent => ?_
    rw [hlog]
    exact Selector.mem_events htrial hevent
  exact ⟨hresult, users, tried, htokens, hnodup Selector.Sample.keyed,
    (hconducts.chosen _ hresult).1, hfirst _ hanswers _ hresult⟩

end ReleaseTracker
