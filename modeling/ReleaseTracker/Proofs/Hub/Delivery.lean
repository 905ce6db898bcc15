import ReleaseTracker.Proofs.Hub.Announcement

/-! How an announcement is delivered: it is sent until the hub responds in any way, as long as only
the network fails, and no more often than the policy allows. -/

namespace ReleaseTracker
open Program RetryPolicy

namespace Hub
variable {σ : Type} {publisher : Publisher} {repoIds : List Int} {t t' : Tables} {log : Log}
  {result : Except Fault Bool}

theorem accepted_iff {reply : Except Http.Error Http.Response} : accepted reply = true ↔
    ∃ response, reply = .ok response ∧ 200 ≤ response.status ∧ response.status ≤ 299 := by
  cases reply with
  | error e => simp [accepted]
  | ok response => simp [accepted, Http.Response.isSuccess, Nat.lt_succ_iff]

theorem conclusive_iff {reply : Except Http.Error Http.Response} :
    Conclusive Http.Error.isTransport reply ↔ ∀ message, reply ≠ .error (.transport message) := by
  cases reply with
  | ok response => simp [Conclusive]
  | error e => cases e <;> simp [Conclusive, Http.Error.isTransport]

/-- Replies to one request that was sent again and again. Only after a transport error it was sent
once more, and only when it could not be repeated was such an error the last reply. -/
structure Delivered (retries : Nat) (replies : List (Except Http.Error Http.Response)) : Prop where
  bounded : replies.length ≤ retries + 1
  repeated : ∀ reply ∈ replies.dropLast, ∃ message, reply = .error (.transport message)
  exhausted : ∀ message, replies.getLast? = some (.error (.transport message)) →
    replies.length = retries + 1

theorem delivered_nil (retries : Nat) : Delivered retries [] where
  bounded := Nat.zero_le _
  repeated := List.forall_mem_nil _
  exhausted _ h := by cases h

theorem delivered_of_tried {retries : Nat} {before : List (Except Http.Error Http.Response)}
    {last : Except Http.Error Http.Response}
    (h : Tried Http.Error.isTransport retries before last) :
    Delivered retries (before ++ [last]) where
  bounded := by
    rw [List.length_append, List.length_singleton]
    exact Nat.succ_le_succ h.bounded
  repeated reply hreply := by
    rw [List.dropLast_concat] at hreply
    by_contra hnone
    exact h.inconclusive reply hreply
      (conclusive_iff.mpr fun message hreply => hnone ⟨message, hreply⟩)
  exhausted message hlast := by
    rw [List.getLast?_concat, Option.some_inj] at hlast
    rw [List.length_append, List.length_singleton]
    exact congrArg (· + 1) (h.ended.resolve_right fun hlast' => conclusive_iff.mp hlast' _ hlast)

def Log.Followed (log : Log) : Prop :=
  ∃ repoIds name names, ⟨.stargazers repoIds, (Except.ok (name :: names) :
    Except StoreError (List String))⟩ ∈ log

theorem not_followed_of_lookup (repoIds : List Int) {found : Except StoreError (List String)}
    (h : found = .ok [] ∨ ∃ e, found = .error e) :
    ¬ Log.Followed [⟨.stargazers repoIds, found⟩] := by
  rintro ⟨_, name, names, hmem⟩
  cases List.mem_singleton.mp hmem
  rcases h with h | ⟨e, h⟩ <;> cases h

theorem announce_delivered (hrun : (publisher.announce repoIds).Runs conduct t log result t') :
    ∃ request replies taken, log.exchanges = replies.map (request, ·) ∧
      (replies ≠ [] ↔ log.Followed) ∧ Delivered publisher.retry.retries replies ∧
      result = .ok taken ∧ (taken = true ↔ ∃ response, replies.getLast? = some (.ok response) ∧
        200 ≤ response.status ∧ response.status ≤ 299) := by
  obtain ⟨found, mid, rest, -, hrest, rfl⟩ := runs_ask_iff.mp hrun
  rcases found with e | _ | ⟨name, names⟩
  · obtain ⟨rfl, rfl, -⟩ := runs_done_iff.mp hrest
    have hnone := not_followed_of_lookup repoIds (.inr ⟨e, rfl⟩)
    exact ⟨publisher.request [], [], false, rfl, iff_of_false (fun h => h rfl) hnone,
      delivered_nil _, rfl, by simp⟩
  · obtain ⟨rfl, rfl, -⟩ := runs_done_iff.mp hrest
    have hnone := not_followed_of_lookup repoIds (.inl rfl)
    exact ⟨publisher.request [], [], false, rfl, iff_of_false (fun h => h rfl) hnone,
      delivered_nil _, rfl, by simp⟩
  obtain ⟨e, hsends, rfl⟩ | ⟨reply, _, first, last, hsends, hend, rfl⟩ := runs_bind_iff.mp hrest
  · obtain ⟨_, _, -, hfault, -⟩ := attempt_exchanges hsends
    cases hfault
  obtain ⟨before, last, hexchanges, hlast, htried⟩ := attempt_exchanges hsends
  obtain rfl := Except.ok.inj hlast
  obtain ⟨rfl, rfl, -⟩ := runs_done_iff.mp hend
  rw [List.append_nil]
  refine ⟨publisher.request (name :: names), before ++ [reply], _, hexchanges,
    iff_of_true (by simp) ⟨repoIds, name, names, List.mem_cons_self⟩,
    delivered_of_tried htried, rfl, ?_⟩
  rw [accepted_iff, List.getLast?_concat]
  simp only [Option.some_inj]

end Hub

variable {ε α φ σ τ : Type}

/-- An operation is attempted until an attempt is conclusive or the repetitions are used up, and it
comes to what its last attempt came to. So an announcement sends one request, again only after
transport errors, and it is taken exactly if the last reply is a response of success. -/
theorem repeating_stops_when_conclusive (policy : RetryPolicy) (worthRetrying : ε → Bool)
    (w : Foretelling ε α φ σ) (s : σ) (w' : Hub.Surroundings τ) (publisher : Hub.Publisher)
    (repoIds : List Int) (s' : τ) :
    (∃ k, IsLeast {n | n = policy.retries + 1 ∨
          ∃ i, n = i + 1 ∧ Conclusive worthRetrying (w.coming s i)} k ∧
        outcomes ((policy.repeating worthRetrying).transcript w.answer s) =
          (List.range k).map (w.coming s) ∧
        ((policy.repeating worthRetrying).run w.answer s).1 = .ok (w.coming s (k - 1))) ∧
    ∃ request replies taken,
      (w'.transcript (publisher.announce repoIds) s').exchanges = replies.map (request, ·) ∧
      (replies ≠ [] ↔ (w'.transcript (publisher.announce repoIds) s').Followed) ∧
      Hub.Delivered publisher.retry.retries replies ∧
      (w'.run (publisher.announce repoIds) s').1 = .ok taken ∧
      (taken = true ↔ ∃ response, replies.getLast? = some (.ok response) ∧
        200 ≤ response.status ∧ response.status ≤ 299) :=
  ⟨repeating_foretold policy worthRetrying w s,
    Hub.announce_delivered (runs_run w'.answers (publisher.announce repoIds) s')⟩

namespace Hub.Sample

def reel : Foretelling String Nat Fault (Nat → Except String Nat) where
  answer
    | .attempt, coming => (.ok (coming 0), fun n => coming (n + 1))
    | .pause _, coming => (.ok (), coming)
  coming s := s
  answers query s := by
    cases query with
    | attempt => exact ⟨_, _, rfl, rfl, rfl⟩
    | pause delay => exact ⟨_, _, rfl, rfl⟩

def twiceReset : Nat → Except String Nat
  | 0 | 1 => .error "reset"
  | n => .ok n

def flaky (now : Instant) : Surroundings (Tables × Nat) where
  answer
    | .stargazers repoIds, s => (.ok (.ok (s.1.stargazers repoIds)), s)
    | .send _, (t, 0) => (.ok (.ok ⟨204, [], ""⟩), (t, 0))
    | .send _, (t, n + 1) => (.ok (.error (.transport "reset")), (t, n))
    | .pause _, s => (.ok (), s)
  tables := Prod.fst
  answers query s := by
    obtain ⟨t, n⟩ := s
    cases query with
    | stargazers repoIds => exact ⟨_, _, rfl, .inl ⟨now, rfl⟩⟩
    | send request => cases n <;> exact ⟨_, _, rfl, rfl⟩
    | pause delay => exact ⟨_, _, rfl, rfl⟩

def patientHub : Publisher := { hub with retry := .fixed 0 2 }

end Hub.Sample

open Hub.Sample in
theorem repeating_stops_when_conclusive_third :
    (∃ k, IsLeast {n | n = 5 + 1 ∨
        ∃ i, n = i + 1 ∧ Conclusive (fun _ => true) (twiceReset i)} k ∧ k = 3) ∧
      ((flaky ⟨0, 0⟩).run (patientHub.announce [7]) (tables, 2)).1 = .ok true ∧
      ((flaky ⟨0, 0⟩).transcript (patientHub.announce [7]) (tables, 2)).exchanges.length = 3 := by
  obtain ⟨⟨k, hleast, houtcomes, -⟩, -⟩ :=
    repeating_stops_when_conclusive (.fixed 0 5) (fun _ => true) reel twiceReset (flaky ⟨0, 0⟩)
      patientHub [7] (tables, 2)
  refine ⟨⟨k, hleast, ?_⟩, rfl, rfl⟩
  have hlength := congrArg List.length houtcomes
  rw [List.length_map, List.length_range] at hlength
  exact hlength.symm

end ReleaseTracker
