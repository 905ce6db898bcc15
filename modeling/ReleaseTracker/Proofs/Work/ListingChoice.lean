import ReleaseTracker.Proofs.GitHub.GraphQlListing
import ReleaseTracker.Proofs.GitHub.RestListing
import ReleaseTracker.Proofs.Sync.StarReconciliation
import ReleaseTracker.Proofs.Work.StarConformance
import ReleaseTracker.Proofs.Work.VersionConformance

/-! The choice of an interface for listings does not matter. A walk over the pages of either does
what could be done with all items at once (`StarSync.adopt`, `VersionSync.adopt`), and nothing that
is done with them asks for a listing any more. -/

namespace ReleaseTracker
open GitHub (ApiCall Page Ref Request Server StarredRepo Tag)
open Program

def GitHub.Server.world (server : Server) (listing : ListingKind) (budget : Nat) (now : Instant) :
    Handler Task Fault Tables
  | .store call, t => (.ok (t.perform now call).1, (t.perform now call).2)
  | .github _ call, t => (server.call listing budget call, t)
  | .authenticate _, t => (.ok true, t)
  | .clock, t => (.ok now, t)
  | .announce _, t => (.ok true, t)

def Task.Query.IsElsewhere : Task.Query → Prop
  | .github _ call => call.goesByListing = false
  | _ => True

def Indifferent {α : Type} (rest graphql : Server) (budget : Nat) (now : Instant) (t : Tables)
    (work : Work α) : Prop :=
  work.run (rest.world .rest budget now) t = work.run (graphql.world .graphql budget now) t ∧
    Yields (fun _ => True) (work.run (rest.world .rest budget now) t).1

section Runs
variable {server rest graphql : Server} {listing : ListingKind} {budget : Nat} {now : Instant}
  {t : Tables} {α β : Type}

theorem indifferent_done (a : α) : Indifferent rest graphql budget now t (.done a) := ⟨rfl, trivial⟩

theorem Indifferent.bind {work : Work α} {f : α → Work β}
    (h : Indifferent rest graphql budget now t work)
    (hnext : ∀ a t', Indifferent rest graphql budget now t' (f a)) :
    Indifferent rest graphql budget now t (work.bind f) := by
  obtain ⟨hsame, hyields⟩ := h
  refine ⟨run_bind_congr hsame fun a t' => (hnext a t').1, ?_⟩
  rw [run_bind]
  generalize work.run (rest.world .rest budget now) t = ending at hyields
  obtain ⟨e | a, t'⟩ := ending
  · exact hyields
  · exact (hnext a t').2

theorem indifferent_of_ensures {work : Work α} {asks : Task.Query → Prop} {good : α → Prop}
    (h : work.Ensures (fun _ _ => True) (fun _ => asks) (fun _ => Yields good) [])
    (hasks : ∀ query, asks query → query.IsElsewhere)
    (helsewhere : ∀ request : Request, request.Elsewhere → rest request = graphql request) :
    Indifferent rest graphql budget now t work := by
  refine (h.mono (fun _ _ => id) (fun _ => hasks) fun _ result hgood => ?_).run
    (fun query t hquery => ?_) t
  · cases result with
    | ok a => trivial
    | error e => exact hgood
  · cases query with
    | github identity call =>
      obtain ⟨a, hrest, hgraphql⟩ := Server.call_elsewhere budget helsewhere hquery
      exact ⟨a, t, trivial, congrArg (·, t) hrest, congrArg (·, t) hgraphql⟩
    | _ => exact ⟨_, _, trivial, rfl, rfl⟩

theorem probe_indifferent (identity : Identity)
    (helsewhere : ∀ request : Request, request.Elsewhere → rest request = graphql request) :
    Indifferent rest graphql budget now t (Work.probe identity) := by
  have hprobe : (Work.probe identity).Ensures (fun _ _ => True)
      (fun _ => Task.Query.IsElsewhere) (fun _ => Yields fun _ => True) [] := by
    refine Work.ensures_github_bind_iff.mpr ⟨rfl, fun answer _ => ?_⟩
    cases answer <;> trivial
  exact indifferent_of_ensures hprobe (fun _ => id) helsewhere

theorem Indifferent.same {work : Work α} (h : Indifferent rest graphql budget now t work) :
    ∃ result t', result ≠ .error .unfinished ∧
      work.run (rest.world .rest budget now) t = (result, t') ∧
      work.run (graphql.world .graphql budget now) t = (result, t') := by
  obtain ⟨hsame, hyields⟩ := h
  refine ⟨_, _, fun hunfinished => ?_, rfl, hsame.symm⟩
  rw [hunfinished] at hyields
  exact hyields rfl

theorem run_github_bind {identity : Identity} {call : ApiCall}
    {answer : Except ApiError call.Result} (h : server.call listing budget call = .ok answer)
    (f : Except ApiError call.Result → Work α) (t : Tables) :
    ((Work.github identity call).bind f).run (server.world listing budget now) t =
      (f answer).run (server.world listing budget now) t := by
  have hanswer : server.world listing budget now (.github identity call) t = (.ok answer, t) :=
    congrArg (·, t) h
  refine (run_bind _ _ _ _).trans ?_
  simp only [Work.github, query, run, hanswer]

theorem run_store_bind {call : StoreCall} {value : call.Result} {t' : Tables}
    (h : t.perform now call = (.ok value, t')) (f : call.Result → Work α) :
    ((Work.store call).bind f).run (server.world listing budget now) t =
      (f value).run (server.world listing budget now) t' := by
  have hanswer : server.world listing budget now (.store call) t = (.ok (.ok value), t') := by
    show (Except.ok (t.perform now call).1, (t.perform now call).2) = _
    rw [h]
  refine (run_bind _ _ _ _).trans ?_
  simp only [Work.store, run, hanswer]

theorem Indifferent.store {call : StoreCall} {value : call.Result} {t' : Tables}
    {f : call.Result → Work α} (h : Indifferent rest graphql budget now t' (f value))
    (hvalue : t.perform now call = (.ok value, t')) :
    Indifferent rest graphql budget now t ((Work.store call).bind f) := by
  unfold Indifferent
  rw [run_store_bind hvalue, run_store_bind hvalue]
  exact h

theorem run_clock_bind (f : Instant → Work α) :
    (Work.clock.bind f).run (server.world listing budget now) t =
      (f now).run (server.world listing budget now) t := rfl

end Runs

namespace StarSync
variable {server : Server} {listing : ListingKind} {budget pages : Nat} {now : Instant}
  {options : SyncOptions} {identity : Identity} {user : User} {previous : List Int}
  {items : List StarredRepo} {page : Page StarredRepo}

theorem takeItems_append (userId : Int) (listed : List Int) (first rest : List StarredRepo) :
    takeItems options userId previous now listed (first ++ rest) =
      (takeItems options userId previous now listed first).bind fun listed =>
        takeItems options userId previous now listed rest := by
  induction first generalizing listed with
  | nil => rfl
  | cons item first ih =>
    simp only [List.cons_append, takeItems, bind_assoc, ih]

def adopt (options : SyncOptions) (user : User) (now : Instant) (items : List StarredRepo) :
    Work Outcome :=
  (Work.store (.findStars user.id)).bind fun previous =>
    (takeItems options user.id previous now [] items).bind fun listed =>
      settle user.id previous listed

theorem walk_run (h : GitHub.Walked (fun cursor => server.call listing budget
      (.starredPage user.username cursor options.pageSize)) pages page items)
    (listed : List Int) (t : Tables) :
    (walk options identity user previous pages listed page).run
        (server.world listing budget now) t =
      ((takeItems options user.id previous now listed items).bind fun listed =>
        .done (listed, true)).run (server.world listing budget now) t := by
  -- the ids listed so far go from page to page, and so from item to item
  induction h generalizing listed t with
  | last hlast =>
    unfold walk
    simp only [run_clock_bind, hlast, if_true]
  | more hmore hanswered _ ih =>
    unfold walk
    rw [run_clock_bind, takeItems_append, bind_assoc]
    refine run_bind_congr rfl fun listed t => ?_
    rw [hmore, if_neg Bool.false_ne_true, run_github_bind hanswered]
    exact ih listed t

theorem reconcile_run (hfirst : server.call listing budget
      (.starredPage user.username none options.pageSize) = .ok (.ok page))
    (h : GitHub.Walked (fun cursor => server.call listing budget
      (.starredPage user.username cursor options.pageSize)) options.pageBudget page items)
    (t : Tables) : (reconcile options identity user).run (server.world listing budget now) t =
      (adopt options user now items).run (server.world listing budget now) t := by
  refine run_bind_congr rfl fun previous t => ?_
  rw [run_github_bind hfirst]
  refine (run_bind_congr (walk_run h [] t) fun _ _ => rfl).trans ?_
  rw [bind_assoc]
  rfl

theorem adopt_ensures {may : (query : Task.Query) → Task.Answer query → Prop} {log : Log} :
    Program.Ensures may (fun _ => Concerns user.id (items.map (·.id)))
      (fun _ => Yields fun outcome => outcome.isAborted = false) log
      (adopt options user now items) := by
  refine Work.ensures_store_bind_iff.mpr ⟨⟨⟨_, rfl⟩, trivial⟩, fun _ _ => nofun, fun _ _ => ?_⟩
  exact (takeItems_concerns fun item => List.mem_map_of_mem).bind (fun _ _ _ => settle_concerns)
    fun _ _ => id

theorem Concerns.isElsewhere {ids : List Int} {query : Task.Query}
    (h : Concerns user.id ids query) : query.IsElsewhere := by
  obtain ⟨⟨call, rfl⟩, -⟩ := h
  trivial

end StarSync

namespace VersionSync
variable {server : Server} {listing : ListingKind} {budget : Nat} {now : Instant}
  {options : SyncOptions} {identity : Identity} {repo : Repo} {refs : List Ref}

theorem takeTag_plain (staging : Staging) (tag : Tag) :
    takeTag options identity repo staging tag.plain =
      takeTag options identity repo staging tag := by
  obtain ⟨name, sha, kind⟩ := tag
  cases kind <;> rfl

theorem takeTags_plain (staging : Staging) (tags : List Tag) :
    takeTags options identity repo staging (tags.map Tag.plain) =
      takeTags options identity repo staging tags := by
  induction tags generalizing staging with
  | nil => rfl
  | cons tag rest ih =>
    simp only [List.map_cons, takeTags, takeTag_plain]
    congr 1
    funext taken
    obtain ⟨staging, _ | reason⟩ := taken
    · exact ih staging
    · rfl

def adopt (options : SyncOptions) (identity : Identity) (repo : Repo) (refs : List Ref) :
    Work Outcome :=
  if refs.isEmpty then .done (.completed 0)
  else
    (takeTags options identity repo .empty (refs.map Ref.tag)).bind fun (staging, reason) =>
      finish repo staging reason

theorem reconcile_run {tags : List Tag}
    (hcount : server.call listing budget (.hasTags repo.fullName) = .ok (.ok !refs.isEmpty))
    (hall : server.call listing budget (.allTags repo.fullName) = .ok (.ok tags))
    (hsame : tags.map Tag.plain = refs.map (Tag.plain ∘ Ref.tag)) (t : Tables) :
    (reconcile options identity repo).run (server.world listing budget now) t =
      (adopt options identity repo refs).run (server.world listing budget now) t := by
  unfold reconcile adopt
  rw [run_github_bind hcount]
  cases refs.isEmpty with
  | true => rfl
  | false =>
    refine (run_github_bind hall _ t).trans ?_
    dsimp only
    -- both sides differ by no more than the names of kinds that are not known
    rw [← takeTags_plain, hsame, ← List.map_map, takeTags_plain]
    rfl

theorem adopt_ensures {may : (query : Task.Query) → Task.Answer query → Prop} {log : Log} :
    Program.Ensures may (fun _ => Concerns repo.id)
      (fun _ => Yields fun outcome => outcome.isAborted = false) log
      (adopt options identity repo refs) := by
  unfold adopt
  split_ifs
  · exact rfl
  · exact pass_concerns

theorem Concerns.isElsewhere {repoId : Int} {query : Task.Query} (h : Concerns repoId query) :
    query.IsElsewhere := by
  cases query with
  | github identity call =>
    change call.isListing = false at h
    cases call with
    | starredPage | hasTags | allTags => cases h
    | _ => rfl
  | _ => trivial

theorem ownerAndName_error {fullName : String} {e : ApiError}
    (h : GitHub.Route.ownerAndName fullName = .error e) : ∃ message, e = .decode message := by
  unfold GitHub.Route.ownerAndName at h
  split at h
  · cases h
  · exact ⟨_, (Except.error.inj h).symm⟩

theorem reconcile_unnamed {e : ApiError} (h : GitHub.Route.ownerAndName repo.fullName = .error e)
    (t : Tables) : (reconcile options identity repo).run (server.world listing budget now) t =
      (.ok (.aborted .remoteFailure), t) := by
  obtain ⟨message, rfl⟩ := ownerAndName_error h
  have hcount : server.call listing budget (.hasTags repo.fullName) =
      .ok (.error (.decode message)) := by
    cases listing with
    | rest =>
      refine (Server.result_getOfRepo ..).trans ?_
      rw [h]
    | graphql =>
      show server.result (GitHub.GraphQl.hasTags repo.fullName) = _
      rw [GitHub.GraphQl.hasTags, h]
      rfl
  unfold reconcile
  rw [run_github_bind hcount]
  rfl

end VersionSync

/-! Both interfaces -/

structure SameListings (rest graphql : Server) (options : SyncOptions) (t : Tables)
    (userId repoId : Int) (stars : List StarredRepo) (refs : List Ref) : Prop where
  elsewhere : ∀ request : Request, request.Elsewhere → rest request = graphql request
  stars : ∀ user, t.user? userId = some user →
    GitHub.Rest.ServesStars rest user.username options.pageSize stars ∧
      GitHub.GraphQl.ServesStars graphql user.username options.pageSize stars
  tags : ∀ repo owner name, t.repo? repoId = some repo →
    GitHub.Route.ownerAndName repo.fullName = .ok (owner, name) →
      GitHub.Rest.ServesTags rest owner name refs ∧
        GitHub.GraphQl.ServesTags graphql owner name refs

section
variable {rest graphql : Server} {options : SyncOptions} {t : Tables} {userId repoId : Int}
  {stars : List StarredRepo} {refs : List Ref} {budget : Nat}

theorem syncStars_indifferent (h : SameListings rest graphql options t userId repoId stars refs)
    (hsize : 1 ≤ options.pageSize) (hpages : stars.length < options.pageBudget)
    (identity : Identity) (budget : Nat) (now : Instant) :
    Indifferent rest graphql budget now t (syncStars options identity userId) := by
  have hlookup : t.perform now (.findUser userId) = (.ok (t.user? userId), t) := rfl
  refine Indifferent.store ?_ hlookup
  cases hfound : t.user? userId with
  | none => exact indifferent_done _
  | some user =>
    obtain ⟨hrest, hgraphql⟩ := h.stars user hfound
    obtain ⟨_, hfirst, hwalked⟩ := hrest.walked hsize budget hpages
    obtain ⟨_, hfirst', hwalked'⟩ := GitHub.GraphQl.ServesStars.walked hgraphql budget hpages
    dsimp only
    split_ifs
    · exact indifferent_done _
    refine (probe_indifferent identity h.elsewhere).bind fun quota t => ?_
    split_ifs
    · unfold Indifferent
      rw [StarSync.reconcile_run hfirst hwalked, StarSync.reconcile_run hfirst' hwalked']
      exact indifferent_of_ensures StarSync.adopt_ensures (fun _ => StarSync.Concerns.isElsewhere)
        h.elsewhere
    · exact indifferent_done _

theorem syncVersions_indifferent
    (h : SameListings rest graphql options t userId repoId stars refs)
    (htags : refs.length < budget) (identity : Identity) (now : Instant) :
    Indifferent rest graphql budget now t (syncVersions options identity repoId) := by
  have hlookup : t.perform now (.findRepo repoId) = (.ok (t.repo? repoId), t) := rfl
  refine Indifferent.store ?_ hlookup
  cases hfound : t.repo? repoId with
  | none => exact indifferent_done _
  | some repo =>
    dsimp only
    split_ifs
    · exact indifferent_done _
    refine (probe_indifferent identity h.elsewhere).bind fun quota t => ?_
    split_ifs
    · unfold Indifferent
      cases hname : GitHub.Route.ownerAndName repo.fullName with
      | error e =>
        rw [VersionSync.reconcile_unnamed hname, VersionSync.reconcile_unnamed hname]
        exact ⟨rfl, trivial⟩
      | ok found =>
        obtain ⟨owner, name⟩ := found
        obtain ⟨hrest, hgraphql⟩ := h.tags repo owner name hfound hname
        obtain ⟨tags, hall, hsame⟩ := hgraphql.allTags_answered hname htags
        rw [VersionSync.reconcile_run (hrest.hasTags_answered budget hname)
          (hrest.allTags_answered budget hname) (by rw [List.map_map]),
          VersionSync.reconcile_run (hgraphql.hasTags_answered budget hname) hall hsame]
        exact indifferent_of_ensures VersionSync.adopt_ensures
          (fun _ => VersionSync.Concerns.isElsewhere) h.elsewhere
    · exact indifferent_done _

/-- Whichever interface is chosen, stars and versions are followed to the same outcome and leave the
same tables. The listings may be cut into pages in any way, as long as so many pages are allowed. -/
theorem listings_interchangeable
    (h : SameListings rest graphql options t userId repoId stars refs)
    (hsize : 1 ≤ options.pageSize) (hpages : stars.length < options.pageBudget)
    (htags : refs.length < budget) (identity : Identity) (now : Instant) :
    (∃ result t', result ≠ .error .unfinished ∧
      (syncStars options identity userId).run (rest.world .rest budget now) t = (result, t') ∧
      (syncStars options identity userId).run (graphql.world .graphql budget now) t =
        (result, t')) ∧
    ∃ result t', result ≠ .error .unfinished ∧
      (syncVersions options identity repoId).run (rest.world .rest budget now) t = (result, t') ∧
      (syncVersions options identity repoId).run (graphql.world .graphql budget now) t =
        (result, t') :=
  ⟨(syncStars_indifferent h hsize hpages identity budget now).same,
    (syncVersions_indifferent h htags identity now).same⟩

end

namespace Listings.Sample

def stars : List StarredRepo :=
  [⟨2, "o/r", "r", none, none, some "Rust", none⟩,
    ⟨1, "o/s", "s", some "Second", none, none, some "https://a/1"⟩,
    ⟨4, "o/t", "t", none, some "https://t", some "Lean", none⟩]

def refs : List Ref := [⟨"v1.0", "a", "commit"⟩, ⟨"v1.1", "b", "tree"⟩, ⟨"v2.0", "a", "commit"⟩]

def restRepo (item : StarredRepo) : Json :=
  .obj [("id", .int item.id), ("name", .str item.name), ("full_name", .str item.fullName),
    ("owner", .obj [("avatar_url", Json.ofOption .str item.ownerAvatarUrl)]),
    ("description", Json.ofOption .str item.description),
    ("homepage", .str (item.homepage.getD "")), ("language", Json.ofOption .str item.language)]

def graphqlRepo (item : StarredRepo) : Json :=
  .obj [("databaseId", .int item.id), ("nameWithOwner", .str item.fullName),
    ("name", .str item.name), ("description", Json.ofOption .str item.description),
    ("homepageUrl", Json.ofOption .str item.homepage),
    ("primaryLanguage", Json.ofOption (fun name => .obj [("name", .str name)]) item.language),
    ("owner", .obj [("avatarUrl", Json.ofOption .str item.ownerAvatarUrl)])]

def restTag (ref : Ref) : Json :=
  .obj [("ref", .str ("refs/tags/" ++ ref.name)),
    ("object", .obj [("type", .str ref.kind), ("sha", .str ref.sha)])]

def graphqlTag (ref : Ref) : Json :=
  .obj [("name", .str ref.name),
    ("target", .obj [("__typename", .str ref.kind.capitalize), ("oid", .str ref.sha)])]

def quota : Json :=
  .obj [("limit", .int 60), ("used", .int 10), ("remaining", .int 50), ("reset", .int 0)]

def contents : List (String × Json) :=
  [("/users/ann/starred?per_page=2&page=1", .arr ((stars.take 2).map restRepo)),
    ("/users/ann/starred?per_page=2&page=2", .arr ((stars.drop 2).map restRepo)),
    ("/users/ann/starred?per_page=2&page=3", .arr []),
    ("/repos/o/r/tags?per_page=1&page=1", .arr [.null]),
    ("/repos/o/r/git/refs/tags", .arr (refs.map restTag)),
    ("/repos/o/r/git/commits/a", .obj [("author", .obj [("date", .str "2024-01-02T03:04:05Z")])]),
    ("/rate_limit",
      .obj [("resources", .obj [("core", quota), ("search", quota)]), ("rate", quota)])]

def rest : Server := fun request =>
  match contents.lookup request.target with
  | some v => .received 200 (.json v)
  | none => .received 404 (.json (.obj [("message", .str "Not Found")]))

def page (next : Option String) (nodes : List Json) : Json :=
  .obj [("pageInfo", .obj [("hasNextPage", .bool next.isSome),
    ("endCursor", Json.ofOption .str next)]), ("nodes", .arr nodes)]

def response (root name : String) (listing : Json) : GitHub.Reply :=
  .received 200 (.json (.obj [("data", .obj [(root, .obj [(name, listing)])])]))

def respond (values : Json) : GitHub.Reply :=
  match values.get? "login", values.get? "after" with
  | some _, some .null => response "user" "starredRepositories"
      (page (some "next") ((stars.take 1).map graphqlRepo))
  | some _, _ => response "user" "starredRepositories" (page none ((stars.drop 1).map graphqlRepo))
  | none, none => response "repository" "refs" (.obj [("totalCount", .int 3)])
  | none, some .null => response "repository" "refs"
      (page (some "next") ((refs.take 2).map graphqlTag))
  | none, some _ => response "repository" "refs" (page none ((refs.drop 2).map graphqlTag))

def graphql : Server
  | ⟨.post, "/graphql", some (.obj [_, (_, values)])⟩ => respond values
  | request => rest request

def options : SyncOptions := { SyncOptions.default 4 with pageSize := 2 }

theorem stars_listed :
    ∀ item ∈ stars, Word.isInteger64 item.id = true ∧ item.homepage ≠ some "" := by
  decide

theorem restRepo_describes {item : StarredRepo} (hitem : item ∈ stars) :
    GitHub.Rest.form.Describes item (restRepo item) := by
  obtain ⟨hid, hhomepage⟩ := stars_listed item hitem
  have howner : GitHub.Rest.form.Owner item.ownerAvatarUrl
      (.obj [("avatar_url", Json.ofOption .str item.ownerAvatarUrl)]) :=
    ⟨_, Json.holds_obj_iff.mpr (by simp [GitHub.Rest.form]),
      Json.perhaps_ofOption Json.isText_str _⟩
  have hpage : (some (item.homepage.getD "")).filter (· ≠ "") = item.homepage := by
    cases hgiven : item.homepage with
    | none => rfl
    | some page => simpa [hgiven, Option.filter] using hhomepage
  exact .intro hid (Json.holds_obj_iff.mpr (by simp [GitHub.Rest.form]))
    (Json.perhaps_ofOption Json.isText_str _) (.given rfl) hpage
    (Json.perhaps_ofOption Json.isText_str _) (.given howner) rfl

theorem graphqlRepo_describes {item : StarredRepo} (hitem : item ∈ stars) :
    GitHub.GraphQl.form.Describes item (graphqlRepo item) := by
  obtain ⟨hid, hhomepage⟩ := stars_listed item hitem
  have howner : GitHub.GraphQl.form.Owner item.ownerAvatarUrl
      (.obj [("avatarUrl", Json.ofOption .str item.ownerAvatarUrl)]) :=
    ⟨_, Json.holds_obj_iff.mpr (by simp [GitHub.GraphQl.form]),
      Json.perhaps_ofOption Json.isText_str _⟩
  have hnames (name : String) : GitHub.GraphQl.form.names name (.obj [("name", .str name)]) :=
    Json.holds_obj_iff.mpr (by simp)
  have hpage : item.homepage.filter (· ≠ "") = item.homepage := by
    cases hgiven : item.homepage with
    | none => rfl
    | some page => simpa [hgiven, Option.filter] using hhomepage
  exact .intro hid (Json.holds_obj_iff.mpr (by simp [GitHub.GraphQl.form]))
    (Json.perhaps_ofOption Json.isText_str _) (Json.perhaps_ofOption Json.isText_str _) hpage
    (Json.perhaps_ofOption hnames _) (.given howner) rfl

theorem restTag_describes (ref : Ref) : GitHub.Rest.DescribesTag ref (restTag ref) := by
  refine ⟨.obj [("type", .str ref.kind), ("sha", .str ref.sha)], ?_, by simp⟩
  simp [restTag, GitHub.Rest.tagMarker]

theorem graphqlTag_describes {ref : Ref} (href : ref ∈ refs) :
    GitHub.GraphQl.DescribesTag ref (graphqlTag ref) := by
  have hkind : Text.lowerAscii ref.kind.capitalize.toList = Text.lowerAscii ref.kind.toList := by
    revert ref
    decide +kernel
  refine ⟨.obj [("__typename", .str ref.kind.capitalize), ("oid", .str ref.sha)], _, ?_, by simp,
    hkind⟩
  simp [graphqlTag]

theorem page_isPage {α : Type} {describes : α → Json → Prop} {write : α → Json} {items : List α}
    (hwrite : ∀ a ∈ items, describes a (write a)) (next : Option String) :
    GitHub.PageOf describes ⟨items, next⟩ (page next (items.map write)) := by
  refine ⟨.obj [("hasNextPage", .bool next.isSome), ("endCursor", Json.ofOption .str next)], _,
    some (Json.ofOption .str next), next, ?_, by simp,
    Json.perhaps_ofOption Json.isText_str next, fun _ => rfl, Json.lists_map hwrite⟩
  simp [page]

theorem rest_page {k : Nat} (hk : k < 3) :
    rest ⟨.get, GitHub.Rest.starredTarget "ann" (k + 1) 2, none⟩ =
      .received 200 (.json (.arr (((stars.drop (k * 2)).take 2).map restRepo))) := by
  match k, hk with
  | 0, _ => rfl
  | 1, _ => rfl
  | 2, _ => rfl

theorem rest_servesStars : GitHub.Rest.ServesStars rest "ann" 2 stars where
  few := by decide
  page k hk := by
    have hk : k < 3 := by
      have hlength : stars.length = 3 := rfl
      omega
    refine ⟨200, _, _, rest_page hk, rfl, rfl, Json.lists_map fun item hitem => ?_⟩
    exact restRepo_describes (List.mem_of_mem_drop (List.mem_of_mem_take hitem))

theorem response_carries {root name : String} {listing : Json} {holds : Json → Prop}
    (hreadable : listing.isReadable = true) (h : holds listing) :
    (response root name listing).Carries (GitHub.GraphQl.Responds root name holds) := by
  refine ⟨200, _, _, rfl, rfl, rfl, ?_, .obj [(root, .obj [(name, listing)])],
    .obj [(name, listing)], listing, by simp, by simp, by simp, h⟩
  simp [Json.isReadable, Json.allFieldsReadable, hreadable]

theorem graphql_servesStars : GitHub.GraphQl.ServesStars graphql "ann" 2 stars := by
  have hfirst : GitHub.GraphQl.ServesStarPage graphql "ann" 2 none ⟨stars.take 1, some "next"⟩ :=
    response_carries rfl (page_isPage (fun item hitem =>
      graphqlRepo_describes (List.mem_of_mem_take hitem)) _)
  have hlast : GitHub.GraphQl.ServesStarPage graphql "ann" 2 (some "next") ⟨stars.drop 1, none⟩ :=
    response_carries rfl (page_isPage (fun item hitem =>
      graphqlRepo_describes (List.mem_of_mem_drop hitem)) _)
  exact .more hfirst (by decide) (.last hlast)

theorem rest_servesTags : GitHub.Rest.ServesTags rest "o" "r" refs where
  probe := ⟨200, _, _, rfl, rfl, rfl, _, rfl, rfl, by simp [refs]⟩
  all := ⟨200, _, _, rfl, rfl, rfl, rfl, .inl (Json.lists_map fun ref _ => restTag_describes ref)⟩

theorem graphql_servesTags : GitHub.GraphQl.ServesTags graphql "o" "r" refs where
  count := response_carries rfl ⟨3, rfl, by simp [refs], _, rfl, by simp⟩
  pages := by
    have hfirst : GitHub.GraphQl.ServesTagPage graphql "o" "r" none ⟨refs.take 2, some "next"⟩ :=
      response_carries rfl ⟨page_isPage (fun ref href =>
        graphqlTag_describes (List.mem_of_mem_take href)) _, _, rfl, by simp⟩
    have hlast : GitHub.GraphQl.ServesTagPage graphql "o" "r" (some "next")
        ⟨refs.drop 2, none⟩ :=
      response_carries rfl ⟨page_isPage (fun ref href =>
        graphqlTag_describes (List.mem_of_mem_drop href)) _, _, rfl, by simp⟩
    exact .more hfirst (by decide) (.last hlast)

theorem sameListings : SameListings rest graphql options StarSync.Sample.tables 1 1 stars refs where
  elsewhere := by
    rintro _ (_ | _ | _ | _) <;> rfl
  stars := by
    rintro user ⟨⟩
    exact ⟨rest_servesStars, graphql_servesStars⟩
  tags := by
    rintro repo owner name ⟨⟩ ⟨⟩
    exact ⟨rest_servesTags, graphql_servesTags⟩

end Listings.Sample

open Listings.Sample

theorem listings_interchangeable_recut :
    (∃ t', (syncStars options .app 1).run (rest.world .rest 4 StarSync.Sample.time)
        StarSync.Sample.tables = (.ok (.completed 3), t') ∧
      (syncStars options .app 1).run (graphql.world .graphql 4 StarSync.Sample.time)
        StarSync.Sample.tables = (.ok (.completed 3), t') ∧ t'.starsOf 1 = [1, 2, 4]) ∧
    ∃ t', (syncVersions options .app 1).run (rest.world .rest 4 StarSync.Sample.time)
        StarSync.Sample.tables = (.ok (.completed 2), t') ∧
      (syncVersions options .app 1).run (graphql.world .graphql 4 StarSync.Sample.time)
        StarSync.Sample.tables = (.ok (.completed 2), t') ∧
      t'.versions.map (·.tagName) = ["v1.0", "v2.0"] := by
  obtain ⟨⟨result, t₁, -, hrest, hgraphql⟩, ⟨result', t₂, -, hrest', hgraphql'⟩⟩ :=
    listings_interchangeable sameListings (by decide) (by decide) (show refs.length < 4 by decide)
      .app StarSync.Sample.time
  have hstars : ((syncStars options .app 1).run (rest.world .rest 4 StarSync.Sample.time)
      StarSync.Sample.tables).1 = .ok (.completed 3) ∧
      ((syncStars options .app 1).run (rest.world .rest 4 StarSync.Sample.time)
        StarSync.Sample.tables).2.starsOf 1 = [1, 2, 4] := by decide +kernel
  have hversions : ((syncVersions options .app 1).run (rest.world .rest 4 StarSync.Sample.time)
      StarSync.Sample.tables).1 = .ok (.completed 2) ∧
      ((syncVersions options .app 1).run (rest.world .rest 4 StarSync.Sample.time)
        StarSync.Sample.tables).2.versions.map (·.tagName) = ["v1.0", "v2.0"] := by
    decide +kernel
  rw [hrest] at hstars
  rw [hrest'] at hversions
  obtain ⟨rfl, hstarred⟩ := hstars
  obtain ⟨rfl, hstored⟩ := hversions
  exact ⟨⟨t₁, hrest, hgraphql, hstarred⟩, t₂, hrest', hgraphql', hstored⟩

end ReleaseTracker
