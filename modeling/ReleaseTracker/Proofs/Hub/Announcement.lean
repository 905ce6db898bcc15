import Mathlib.Data.String.Basic
import ReleaseTracker.Hub.Publisher
import ReleaseTracker.Proofs.Credential.Selection
import ReleaseTracker.Proofs.GitHub.Disappearance
import ReleaseTracker.Proofs.Hub.Retries
import ReleaseTracker.Proofs.Store.Keys
import ReleaseTracker.Proofs.Text.Percent
import ReleaseTracker.Proofs.Text.Replacement

/-! What a hub is told. Whoever follows a repository with news has one feed in the announcement, in
the order of the names, and however often it is tried the request stays the same. Nothing is sent
when the followers cannot be looked up, or when there are none. -/

namespace ReleaseTracker
open Program Text

/-! The followers -/

namespace Tables
variable {α β : Type} {t : Tables} {repoIds : List Int} {users : List User}

theorem insertSorted_map (f : α → β) (le : β → β → Bool) (a : α) (xs : List α) :
    insertSorted le (f a) (xs.map f) = (insertSorted (fun a b => le (f a) (f b)) a xs).map f := by
  induction xs with
  | nil => rfl
  | cons x xs ih =>
    rw [List.map_cons, insertSorted, insertSorted, ih]
    split <;> rfl

theorem sortBy_map (f : α → β) (le : β → β → Bool) (xs : List α) :
    sortBy le (xs.map f) = (sortBy (fun a b => le (f a) (f b)) xs).map f := by
  induction xs with
  | nil => rfl
  | cons x xs ih => rw [List.map_cons, sortBy, sortBy, ih, insertSorted_map]

def Follows (t : Tables) (repoIds : List Int) (user : User) : Prop :=
  user ∈ t.users ∧ user.removedAt = none ∧
    ∃ star ∈ t.stars, star.userId = user.id ∧ star.repoId ∈ repoIds

structure Followers (t : Tables) (repoIds : List Int) (users : List User) : Prop where
  complete : ∀ user, user ∈ users ↔ t.Follows repoIds user
  ascending : (users.map fun user => Utf8.encode user.username.toList).Pairwise (· < ·)

theorem Followers.nodup (h : t.Followers repoIds users) : (users.map (·.username)).Nodup := by
  have hoctets : (users.map fun user => Utf8.encode user.username.toList).Nodup := by
    refine h.ascending.imp ?_
    rintro octets _ hlt rfl
    exact List.lt_irrefl octets hlt
  refine List.Nodup.of_map (fun name => Utf8.encode name.toList) ?_
  rwa [List.map_map]

theorem followers_stargazers (h : t.Keyed) (repoIds : List Int) :
    ∃ users, t.Followers repoIds users ∧ t.stargazers repoIds = users.map (·.username) := by
  let following := t.users.filter fun u => !u.isRemoved && t.starsOneOf u.id repoIds
  have hnames : t.stargazers repoIds =
      (sortBy (fun a b => decide (a.username ≤ b.username)) following).map (·.username) :=
    sortBy_map _ _ _
  refine ⟨_, ⟨fun user => ?_, ?_⟩, hnames⟩
  · rw [mem_sortBy, List.mem_filter]
    simp [Follows, User.isRemoved, starsOneOf]
  · have hsorted : (t.stargazers repoIds).Pairwise (· ≤ ·) := by
      rw [stargazers, sortBy_eq_insertionSort]
      exact (List.pairwise_insertionSort _ _).imp of_decide_eq_true
    have hnodup : (t.stargazers repoIds).Nodup := by
      rw [stargazers, sortBy_eq_insertionSort, (List.perm_insertionSort _ _).nodup_iff]
      exact h.usernames.sublist (List.filter_sublist.map _)
    have hstrict := hsorted.and hnodup
    rw [hnames, List.pairwise_map] at hstrict
    rw [List.pairwise_map]
    exact hstrict.imp fun h => Utf8.encode_lt (String.lt_iff_toList_lt.mp (lt_of_le_of_ne h.1 h.2))

end Tables

namespace Hub

abbrev Log := List (Answered Announcing)

/-- The followers are looked up in a store that may fail. Nothing else touches the tables, and the
hub may reply anything. -/
def conduct : Conduct Announcing Tables :=
  fun t (query : Query) (answer : Answer query) t' =>
    match query, answer with
    | .stargazers repoIds, answer => StoreRule.fallible t (.findStargazers repoIds) answer t'
    | .send _, _ | .pause _, _ => t' = t

structure Surroundings (σ : Type) where
  answer : Handler Announcing Fault σ
  tables : σ → Tables
  answers : ∀ q s, ∃ a s', answer q s = (.ok a, s') ∧ conduct (tables s) q a (tables s')

namespace Surroundings
variable {σ α : Type}

def run (w : Surroundings σ) (p : Program Announcing Fault α) (s : σ) : Except Fault α × σ :=
  p.run w.answer s

def transcript (w : Surroundings σ) (p : Program Announcing Fault α) (s : σ) : Log :=
  p.transcript w.answer s

end Surroundings

def sent? : Answered Announcing → Option Http.Request
  | ⟨.send request, _⟩ => some request
  | _ => none

def Log.sent (log : Log) : List Http.Request := log.filterMap sent?

/-- The request posts to the hub a form with the mode and then the feed of each user, which is the
template with the user's name for every mark. With a mark, no two of the feeds are the same. -/
structure Announces (publisher : Publisher) (users : List User) (request : Http.Request) :
    Prop where
  posts : request.method = .post ∧ request.url = publisher.hubUrl ∧
    request.headers = [("Content-Type", "application/x-www-form-urlencoded")]
  form : ∃ pieces, Cut "\x7busername\x7d".toList publisher.feedUrlTemplate.toList pieces ∧
    Percent.decodeForm request.body.toList = ("hub.mode", "publish") ::
      users.map fun user => ("hub.url", String.ofList (user.username.toList.intercalate pieces))
  distinct : "\x7busername\x7d".toList <:+: publisher.feedUrlTemplate.toList →
    ((Percent.decodeForm request.body.toList).tail.map (·.2)).Nodup

variable {σ : Type} {publisher : Publisher} {request : Http.Request} {users : List User}
  {t t' : Tables} {log : Log}

theorem request_announces (h : (users.map (·.username)).Nodup) :
    Announces publisher users (publisher.request (users.map (·.username))) := by
  obtain ⟨pieces, hcut, hreplace⟩ : ∃ pieces,
      Cut usernameMark publisher.feedUrlTemplate.toList pieces ∧
        ∀ new, replaceAll usernameMark new publisher.feedUrlTemplate.toList =
          new.intercalate pieces := exists_cut (by decide) _
  have hform : Percent.decodeForm (publisher.request (users.map (·.username))).body.toList =
      ("hub.mode", "publish") :: users.map fun user =>
        ("hub.url", String.ofList (user.username.toList.intercalate pieces)) := by
    rw [Publisher.request, Http.Request.form, String.toList_ofList, Percent.decodeForm_encodeForm,
      List.map_map]
    simp only [Function.comp_def, feedUrl, hreplace]
  refine ⟨⟨rfl, rfl, rfl⟩, ⟨pieces, hcut, hform⟩, fun hmark => ?_⟩
  obtain ⟨first, second, rest, rfl⟩ := hcut.two hmark
  have hurls : ((users.map (·.username)).map fun name =>
      String.ofList (name.toList.intercalate (first :: second :: rest))).Nodup :=
    h.map fun name other hsame =>
      String.toList_inj.mp (intercalate_injective first second rest (String.ofList_inj.mp hsame))
  rw [hform, List.tail_cons, List.map_map]
  rwa [List.map_map] at hurls

/-! The attempts -/

def exchange? : Answered Announcing → Option (Http.Request × Except Http.Error Http.Response)
  | ⟨.send request, reply⟩ => some (request, reply)
  | _ => none

def Log.exchanges (log : Log) : List (Http.Request × Except Http.Error Http.Response) :=
  log.filterMap exchange?

theorem sent_eq_exchanges (log : Log) : log.sent = log.exchanges.map Prod.fst := by
  rw [Log.sent, Log.exchanges, List.map_filterMap]
  refine List.filterMap_congr fun ⟨query, reply⟩ _ => ?_
  cases query <;> rfl

def sentFor (request : Http.Request) :
    Answered (Repeating Http.Error Http.Response) → Answered Announcing
  | ⟨.attempt, reply⟩ => ⟨.send request, reply⟩
  | ⟨.pause delay, answer⟩ => ⟨.pause delay, answer⟩

theorem runs_sending {α : Type} {p : Program (Repeating Http.Error Http.Response) Fault α}
    {result : Except Fault α}
    (hrun : (p.translate (sending request)).Runs conduct t log result t') :
    ∃ attempts, p.Runs anyhow () attempts result () ∧ log = attempts.map (sentFor request) := by
  induction p generalizing t log with
  | done a =>
    obtain ⟨rfl, rfl, -⟩ := runs_done_iff.mp hrun
    exact ⟨[], .done a (), rfl⟩
  | stop e =>
    obtain ⟨rfl, rfl, -⟩ := runs_stop_iff.mp hrun
    exact ⟨[], .stop e (), rfl⟩
  | ask query next ih =>
    cases query with
    | attempt =>
      obtain ⟨reply, _, rest, -, hrest, rfl⟩ := runs_ask_iff.mp hrun
      obtain ⟨attempts, hattempts, rfl⟩ := ih reply hrest
      exact ⟨⟨.attempt, reply⟩ :: attempts, .ask trivial hattempts, rfl⟩
    | pause delay =>
      obtain ⟨answer, _, rest, -, hrest, rfl⟩ := runs_ask_iff.mp hrun
      obtain ⟨attempts, hattempts, rfl⟩ := ih answer hrest
      exact ⟨⟨.pause delay, answer⟩ :: attempts, .ask trivial hattempts, rfl⟩

theorem exchanges_sentFor (request : Http.Request)
    (attempts : List (Answered (Repeating Http.Error Http.Response))) :
    Log.exchanges (attempts.map (sentFor request)) =
      (RetryPolicy.outcomes attempts).map (request, ·) := by
  rw [Log.exchanges, RetryPolicy.outcomes, List.filterMap_map, List.map_filterMap]
  refine List.filterMap_congr fun ⟨query, reply⟩ _ => ?_
  cases query <;> rfl

theorem attempt_exchanges {policy : RetryPolicy} {worthRetrying : Http.Error → Bool}
    {retries delay : Nat} {result : Except Fault (Except Http.Error Http.Response)}
    (hrun : ((policy.attempt worthRetrying retries delay).translate (sending request)).Runs
      conduct t log result t') :
    ∃ before last, log.exchanges = (before ++ [last]).map (request, ·) ∧ result = .ok last ∧
      RetryPolicy.Tried worthRetrying retries before last := by
  obtain ⟨attempts, hattempts, rfl⟩ := runs_sending hrun
  obtain ⟨before, last, houtcomes, hresult, htried⟩ := RetryPolicy.attempt_runs hattempts
  exact ⟨before, last, by rw [exchanges_sentFor, houtcomes], hresult, htried⟩

theorem attempt_sends {policy : RetryPolicy} {worthRetrying : Http.Error → Bool}
    {retries delay : Nat} {result : Except Fault (Except Http.Error Http.Response)}
    (hrun : ((policy.attempt worthRetrying retries delay).translate (sending request)).Runs
      conduct t log result t') :
    ∃ n ≤ retries, log.sent = List.replicate (n + 1) request := by
  obtain ⟨before, last, hexchanges, -, htried⟩ := attempt_exchanges hrun
  refine ⟨before.length, htried.bounded, ?_⟩
  rw [sent_eq_exchanges, hexchanges, List.map_map]
  show (before ++ [last]).map (fun _ => request) = _
  rw [List.map_const', List.length_append, List.length_singleton]

def Log.LookupFailed (log : Log) : Prop :=
  ∃ (repoIds : List Int) (e : StoreError) (rest : Log),
    log = ⟨.stargazers repoIds, (Except.error e : Except StoreError (List String))⟩ :: rest

/-- Without a follower that could be looked up, an announcement sends nothing and is not taken.
Otherwise it sends one request, once or again and again, with one feed for each follower. -/
theorem Publisher.announce_followers (w : Surroundings σ) (publisher : Publisher)
    (repoIds : List Int) (s : σ) (hkeyed : (w.tables s).Keyed) :
    ((w.transcript (publisher.announce repoIds) s).LookupFailed ∨
        (∀ user, ¬ (w.tables s).Follows repoIds user) →
      (w.transcript (publisher.announce repoIds) s).sent = [] ∧
        (w.run (publisher.announce repoIds) s).1 = .ok false) ∧
    (¬ (w.transcript (publisher.announce repoIds) s).LookupFailed →
        (∃ user, (w.tables s).Follows repoIds user) →
      ∃ users request n, (w.tables s).Followers repoIds users ∧ Announces publisher users request ∧
        n ≤ publisher.retry.retries ∧
        (w.transcript (publisher.announce repoIds) s).sent = List.replicate (n + 1) request) := by
  have hrun := runs_run w.answers (publisher.announce repoIds) s
  unfold Surroundings.transcript Surroundings.run
  generalize (publisher.announce repoIds).transcript w.answer s = log at hrun ⊢
  generalize (publisher.announce repoIds).run w.answer s = outcome at hrun ⊢
  generalize w.tables s = t at hkeyed hrun ⊢
  obtain ⟨found, mid, rest, hlookup, hrest, rfl⟩ := runs_ask_iff.mp hrun
  rcases found with e | names
  · obtain ⟨rfl, hresult, -⟩ := runs_done_iff.mp hrest
    exact ⟨fun _ => ⟨rfl, hresult⟩, fun hfound => absurd ⟨repoIds, e, [], rfl⟩ hfound⟩
  obtain ⟨users, hfollowers, hnames⟩ := Tables.followers_stargazers hkeyed repoIds
  obtain ⟨now, hperform⟩ := StoreRule.fallible_ok_iff.mp hlookup
  obtain rfl : t.stargazers repoIds = names := Except.ok.inj (Prod.mk.inj hperform).1
  rw [hnames] at hrest
  cases users with
  | nil =>
    obtain ⟨rfl, hresult, -⟩ := runs_done_iff.mp hrest
    refine ⟨fun _ => ⟨rfl, hresult⟩, fun _ ⟨user, hfollows⟩ => ?_⟩
    cases (hfollowers.complete user).mpr hfollows
  | cons user more =>
    constructor
    · rintro (⟨_, _, _, hfailed⟩ | hnobody)
      · cases hfailed
      · exact absurd ((hfollowers.complete user).mp (List.mem_cons_self ..)) (hnobody user)
    · intro _ _
      have hrequest : Announces publisher (user :: more) _ := request_announces hfollowers.nodup
      obtain ⟨_, hsends, -⟩ | ⟨_, _, first, _, hsends, hend, rfl⟩ := runs_bind_iff.mp hrest
      · obtain ⟨n, hn, hsent⟩ := attempt_sends hsends
        exact ⟨_, _, n, hfollowers, hrequest, hn, hsent⟩
      · obtain ⟨rfl, -⟩ := runs_done_iff.mp hend
        obtain ⟨n, hn, hsent⟩ := attempt_sends hsends
        rw [List.append_nil]
        exact ⟨_, _, n, hfollowers, hrequest, hn, hsent⟩

def taking (now : Instant) : Surroundings Tables where
  answer
    | .stargazers repoIds, t => (.ok (.ok (t.stargazers repoIds)), t)
    | .send _, t => (.ok (.ok ⟨204, [], ""⟩), t)
    | .pause _, t => (.ok (), t)
  tables t := t
  answers query t := by
    cases query with
    | stargazers repoIds => exact ⟨_, _, rfl, .inl ⟨now, rfl⟩⟩
    | _ => exact ⟨_, _, rfl, rfl⟩

namespace Sample

def user (id : Int) (username : String) (removedAt : Option ZonedTime) : User :=
  ⟨id, username, none, none, "", .utc ⟨0, 0⟩, removedAt⟩

def tables : Tables where
  users := [user 1 "zoé" none, user 2 "\x7busername\x7d" none, user 3 "gone" (some (.utc ⟨0, 0⟩))]
  repos := [⟨7, "o/r", "r", none, none, none, none, .utc ⟨0, 0⟩, none⟩]
  stars := [⟨1, 7, .utc ⟨0, 0⟩⟩, ⟨2, 7, .utc ⟨0, 0⟩⟩, ⟨3, 7, .utc ⟨0, 0⟩⟩]
  versions := []

def hub : Publisher :=
  ⟨"https://hub.example", "https://\x7busername\x7d.example/feed?of=\x7busername\x7d", .once⟩

theorem keyed : tables.Keyed := ⟨by decide, by decide, by decide, by decide, by decide, by decide,
  by decide⟩

theorem announces_two_feeds : tables.Keyed ∧
    ∃ users request n, tables.Followers [7, 7] users ∧ Announces hub users request ∧
      n ≤ hub.retry.retries ∧
      ((taking ⟨0, 0⟩).transcript (hub.announce [7, 7]) tables).sent =
        List.replicate (n + 1) request := by
  refine ⟨keyed, (Publisher.announce_followers (taking ⟨0, 0⟩) hub [7, 7] tables keyed).2 ?_
    ⟨user 1 "zoé" none, by decide, rfl, ⟨1, 7, .utc ⟨0, 0⟩⟩, by decide, rfl, by decide⟩⟩
  rintro ⟨_, _, _, hlog⟩
  cases hlog

example : ((taking ⟨0, 0⟩).transcript (hub.announce [7, 7]) tables).sent.map (·.body) =
    ["hub.mode=publish&hub.url=https%3A%2F%2Fzo%C3%A9.example%2Ffeed%3Fof%3Dzo%C3%A9" ++
      "&hub.url=https%3A%2F%2F%7Busername%7D.example%2Ffeed%3Fof%3D%7Busername%7D"] := by
  decide +kernel

end Sample
end Hub
end ReleaseTracker
