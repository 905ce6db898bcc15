import ReleaseTracker.Proofs.Sync.StarLog
import ReleaseTracker.Proofs.Sync.StarReconciliation
import ReleaseTracker.Proofs.Sync.VersionInterruption

/-! The turns of a walk over stars: each listed repository is looked up in its turn, and stored anew
if it is due at that moment and only then (`Course`). The turns come in the order in which the pages
list the repositories, each at the time at which its page was taken (`Takes`). -/

namespace ReleaseTracker
open GitHub (Page StarredRepo)
open Program StoreRule

def Task.Query.SparesRepos : Task.Query → Prop
  | .store (.findRepo _) | .store (.upsertRepo _) | .store (.markRepoRemoved _ _) => False
  | _ => True

theorem Task.Query.SparesRepos.repos_eq {query : Task.Query} {answer : Task.Answer query}
    {t t' : Tables} (h : query.SparesRepos) (hanswered : reliable.conduct t query answer t') :
    t'.repos = t.repos := by
  cases query with
  | store call =>
    cases call with
    | createStar userId repoId =>
      obtain ⟨now, ⟨-, hensure⟩ | ⟨-, -, rfl⟩⟩ := reliable_createStar_iff.mp hanswered
      · obtain ⟨-, rfl⟩ | ⟨-, rfl⟩ := Tables.ensureStar?_eq_some hensure <;> rfl
      · rfl
    | deleteStars repoIds userId => rw [(reliable_deleteStars_iff.mp hanswered).2]; rfl
    | markUserRemoved id time => rw [(reliable_markUserRemoved_iff.mp hanswered).2]; rfl
    | createVersions rows =>
      obtain ⟨-, -, rfl⟩ | ⟨-, -, rfl⟩ := reliable_createVersions_iff_fits.mp hanswered <;> rfl
    | findRepo | upsertRepo | markRepoRemoved => cases h
    | findUser | userCredentials | findStars | findExistingVersion | findStargazers
    | activeUserIds | activeRepoIds =>
      rw [eq_of_not_isWrite rfl (reliable_le_fallible _ _ _ _ hanswered)]
  | github | authenticate | clock | announce =>
    obtain rfl : t' = t := hanswered
    rfl

theorem Task.Query.SparesRepos.repo?_eq {query : Task.Query} {answer : Task.Answer query}
    {t t' : Tables} (h : query.SparesRepos) (hanswered : reliable.conduct t query answer t')
    (id : Int) : t'.repo? id = t.repo? id := by
  rw [Tables.repo?, Tables.repo?, h.repos_eq hanswered]

namespace Log

def readings (log : Log) : List Instant := log.filterMap reading?

@[simp] theorem readings_append (first rest : Log) :
    Log.readings (first ++ rest) = first.readings ++ rest.readings :=
  List.filterMap_append

theorem readings_clock (now : Instant) (log : Log) :
    Log.readings (⟨.clock, now⟩ :: log) = now :: log.readings := rfl

/-- The repositories that were listed, each with the time at which its page was taken. -/
def occurrences (pages : List (Page StarredRepo)) (readings : List Instant) :
    List (StarredRepo × Instant) :=
  (pages.zip readings).flatMap fun (page, now) => page.items.map (·, now)

theorem occurrences_cons (page : Page StarredRepo) (pages : List (Page StarredRepo))
    (now : Instant) (readings : List Instant) : occurrences (page :: pages) (now :: readings) =
      page.items.map (·, now) ++ occurrences pages readings := rfl

@[simp] theorem occurrences_nil (readings : List Instant) : occurrences [] readings = [] := rfl

theorem mem_of_mem_occurrences {pages : List (Page StarredRepo)} {readings : List Instant}
    {item : StarredRepo} {now : Instant} (h : (item, now) ∈ occurrences pages readings) :
    item.id ∈ listedIds pages ∧ now ∈ readings := by
  obtain ⟨⟨page, time⟩, hzip, hitem⟩ := List.mem_flatMap.mp h
  obtain ⟨hpage, htime⟩ := List.of_mem_zip hzip
  obtain ⟨listed, hlisted, heq⟩ := List.mem_map.mp hitem
  obtain ⟨rfl, rfl⟩ := Prod.mk.inj heq
  exact ⟨List.mem_flatMap.mpr ⟨page, hpage, List.mem_map_of_mem hlisted⟩, htime⟩

end Log

namespace StarSync

structure Turn where
  item : StarredRepo
  now : Instant
  known : Option Repo

namespace Turn

def occurrence (turn : Turn) : StarredRepo × Instant := (turn.item, turn.now)

def draft (turn : Turn) : RepoDraft := turn.item.draft turn.now

def IsDue (options : SyncOptions) (turn : Turn) : Prop :=
  ∀ row, turn.known = some row → ∃ start, turn.now.subNanos? options.staleAfter = some start ∧
    row.updatedAt.instant.isBefore start = true

instance (options : SyncOptions) (turn : Turn) : Decidable (turn.IsDue options) :=
  decidable_of_iff (turn.known.all fun row => (turn.now.subNanos? options.staleAfter).any
    row.updatedAt.instant.isBefore) (by simp [IsDue, Option.all_eq_true, Option.any_eq_true])

end Turn

/-- A log turn by turn. At the time of each turn the repository is looked up, and it is stored anew
exactly if it is due. Whatever else was asked has nothing to do with repositories. A turn at which
the calendar does not reach back to where the window began is not due, and is the last one. -/
inductive Course (options : SyncOptions) : Tables → Log → List Turn → Tables → Prop
  | done (t : Tables) : Course options t [] [] t
  | aside {event : Answered Task} {t mid t' : Tables} {log : Log} {turns : List Turn}
      (spares : event.query.SparesRepos)
      (answered : reliable.conduct t event.query event.answer mid)
      (rest : Course options mid log turns t') : Course options t (event :: log) turns t'
  | fresh {turn : Turn} {t t' : Tables} {log : Log} {turns : List Turn}
      (known : t.repo? turn.item.id = turn.known) (fresh : ¬ turn.IsDue options)
      (rest : Course options t log turns t') :
      Course options t (⟨.store (.findRepo turn.item.id), Except.ok turn.known⟩ :: log)
        (turn :: turns) t'
  | due {turn : Turn} {row : Repo} {t mid t' : Tables} {log : Log} {turns : List Turn}
      (known : t.repo? turn.item.id = turn.known) (due : turn.IsDue options)
      (stored : reliable t (.upsertRepo turn.draft) (.ok row) mid)
      (rest : Course options mid log turns t') :
      Course options t (⟨.store (.findRepo turn.item.id), Except.ok turn.known⟩ ::
        ⟨.store (.upsertRepo turn.draft), Except.ok row⟩ :: log) (turn :: turns) t'

/-- Turns are taken as the repositories were listed, and under a condition all of them. -/
structure Takes (turns : List Turn) (listed : List (StarredRepo × Instant)) (whole : Prop) :
    Prop where
  ordered : turns.map Turn.occurrence <+: listed
  all : whole → turns.map Turn.occurrence = listed

variable {options : SyncOptions} {identity : Identity} {user : User} {userId : Int}
  {previous listed : List Int} {t mid t' : Tables} {log log' : Log} {turns turns' : List Turn}
  {occurrences occurrences' : List (StarredRepo × Instant)} {whole whole' : Prop}

theorem Course.append (h : Course options t log turns mid)
    (h' : Course options mid log' turns' t') :
    Course options t (log ++ log') (turns ++ turns') t' := by
  induction h with
  | done => exact h'
  | aside spares answered _ ih => exact .aside spares answered (ih h')
  | fresh known fresh _ ih => exact .fresh known fresh (ih h')
  | due known due stored _ ih => exact .due known due stored (ih h')

theorem Course.of_runs {α : Type} {work : Work α} {result : Except Fault α}
    (h : work.Runs reliable.conduct t log result t')
    (hspares : ∀ event ∈ log, event.query.SparesRepos) : Course options t log [] t' := by
  induction h with
  | done _ t | stop _ t => exact .done t
  | ask answered _ ih =>
    obtain ⟨hfirst, hrest⟩ := List.forall_mem_cons.mp hspares
    exact .aside hfirst answered (ih hrest)

theorem Takes.nil : Takes [] [] whole := ⟨List.nil_prefix, fun _ => rfl⟩

theorem Takes.imp (h : Takes turns occurrences whole) (himp : whole' → whole) :
    Takes turns occurrences whole' := ⟨h.ordered, fun hwhole => h.all (himp hwhole)⟩

theorem Takes.append (h : Takes turns occurrences True)
    (h' : Takes turns' occurrences' whole) :
    Takes (turns ++ turns') (occurrences ++ occurrences') whole := by
  constructor
  · rw [List.map_append, h.all trivial]
    exact (List.prefix_append_right_inj occurrences).mpr h'.ordered
  · intro hwhole
    rw [List.map_append, h.all trivial, h'.all hwhole]

def TurnByTurn (options : SyncOptions) (pages : List (Page StarredRepo)) (t : Tables) (log : Log)
    (t' : Tables) : Prop :=
  ∃ turns, Course options t log turns t' ∧
    Takes turns (Log.occurrences pages log.readings) (log.WithinCalendar options)

theorem TurnByTurn.done (pages : List (Page StarredRepo)) (t : Tables) :
    TurnByTurn options pages t [] t := by
  refine ⟨[], .done t, ?_⟩
  rw [Log.occurrences, Log.readings, List.filterMap_nil, List.zip_nil_right]
  exact .nil

theorem TurnByTurn.aside {pages : List (Page StarredRepo)} {event : Answered Task}
    (hspares : event.query.SparesRepos) (hreading : Log.reading? event = none)
    (hanswered : reliable.conduct t event.query event.answer mid)
    (h : TurnByTurn options pages mid log t') : TurnByTurn options pages t (event :: log) t' := by
  obtain ⟨turns, hcourse, htakes⟩ := h
  refine ⟨turns, .aside hspares hanswered hcourse, ?_⟩
  rw [Log.readings, List.filterMap_cons_none hreading]
  exact htakes.imp fun hcalendar => hcalendar.mono (List.subset_cons_self _ _)

theorem TurnByTurn.page {page : Page StarredRepo} {pages : List (Page StarredRepo)} {now : Instant}
    (hcourse : Course options t log turns mid) (hnone : log.readings = [])
    (htakes : Takes turns (page.items.map (·, now)) True)
    (h : TurnByTurn options pages mid log' t') :
    TurnByTurn options (page :: pages) t (⟨.clock, now⟩ :: (log ++ log')) t' := by
  obtain ⟨turns', hcourse', htakes'⟩ := h
  refine ⟨turns ++ turns', .aside trivial rfl (hcourse.append hcourse'), ?_⟩
  rw [Log.readings_clock, Log.readings_append, hnone, List.nil_append, Log.occurrences_cons]
  exact htakes.append (htakes'.imp fun hcalendar => hcalendar.mono
    (List.subset_cons_of_subset _ (List.subset_append_right _ _)))

/-! Runs -/

/-- What is done in a turn: the repository is stored if it is due, and left alone if it is fresh or
if the calendar does not reach back to where the window began. -/
theorem isDue_turn (options : SyncOptions) (turn : Turn) :
    (isDue options turn.now turn.known = .stop .crashed ∧ ¬ turn.IsDue options) ∨
      ∃ due, isDue options turn.now turn.known = .done due ∧
        (due = true ↔ turn.IsDue options) := by
  obtain ⟨item, now, known⟩ := turn
  cases known with
  | none => exact .inr ⟨true, rfl, by simp [Turn.IsDue]⟩
  | some row =>
    cases hstart : now.subNanos? options.staleAfter with
    | none => exact .inl ⟨by simp [isDue, isStale?, hstart], by simp [Turn.IsDue, hstart]⟩
    | some start =>
      exact .inr ⟨row.updatedAt.instant.isBefore start, by simp [isDue, isStale?, hstart],
        by simp [Turn.IsDue, hstart]⟩

theorem refresh_course {now : Instant} {item : StarredRepo} {result : Except Fault Unit}
    (h : (refresh options now item).Runs reliable.conduct t log result t') :
    ∃ turn : Turn, turn.occurrence = (item, now) ∧ Course options t log [turn] t' ∧
      log.readings = [] := by
  have hid : (item.draft now).id = .set item.id := rfl
  obtain ⟨e, hfind, -⟩ | ⟨known, mid, rest, hfind, hrest, rfl⟩ := Work.runs_store_bind_iff.mp h
  · simp at hfind
  obtain ⟨hknown, rfl⟩ := reliable_findRepo_iff.mp hfind
  have hknown : mid.repo? item.id = known := (Except.ok.inj hknown).symm
  refine ⟨⟨item, now, known⟩, rfl, ?_⟩
  obtain ⟨hcrash, hfresh⟩ | ⟨due, hdue, hiff⟩ := isDue_turn options ⟨item, now, known⟩
  · rw [show isDue options now known = .stop .crashed from hcrash] at hrest
    obtain ⟨rfl, -, rfl⟩ := runs_stop_iff.mp hrest
    exact ⟨.fresh hknown hfresh (.done _), rfl⟩
  rw [show isDue options now known = .done due from hdue, done_bind] at hrest
  split_ifs at hrest with hstored
  · obtain ⟨e, hupsert, -⟩ | ⟨row, after, last, hupsert, hlast, rfl⟩ :=
      Work.runs_store_bind_iff.mp hrest
    · simp [reliable_upsertRepo_iff hid] at hupsert
    obtain ⟨rfl, -, rfl⟩ := runs_done_iff.mp hlast
    exact ⟨.due hknown (hiff.mp hstored) hupsert (.done _), rfl⟩
  · obtain ⟨rfl, -, rfl⟩ := runs_done_iff.mp hrest
    exact ⟨.fresh hknown (fun h => hstored (hiff.mpr h)) (.done _), rfl⟩

theorem follow_spares {repoId : Int} {result : Except Fault (List Int)}
    (h : (follow userId previous listed repoId).Runs reliable.conduct t log result t') :
    (∀ event ∈ log, event.query.SparesRepos) ∧ log.readings = [] := by
  obtain rfl | ⟨made, rfl⟩ := follow_asked h
  · exact ⟨List.forall_mem_nil _, rfl⟩
  · exact ⟨List.forall_mem_singleton.mpr trivial, rfl⟩

theorem takeItem_course {now : Instant} {item : StarredRepo} {result : Except Fault (List Int)}
    (h : (takeItem options userId previous now listed item).Runs reliable.conduct t log result t') :
    ∃ turn : Turn, turn.occurrence = (item, now) ∧ Course options t log [turn] t' ∧
      log.readings = [] := by
  obtain ⟨e, hrefresh, -⟩ | ⟨_, mid, first, rest, hrefresh, hfollow, rfl⟩ := runs_bind_iff.mp h
  · exact refresh_course hrefresh
  obtain ⟨turn, hturn, hcourse, hnone⟩ := refresh_course hrefresh
  obtain ⟨hspares, hnone'⟩ := follow_spares hfollow
  exact ⟨turn, hturn, hcourse.append (.of_runs hfollow hspares), by simp [hnone, hnone']⟩

theorem takeItems_course {now : Instant} {items : List StarredRepo}
    {result : Except Fault (List Int)}
    (h : (takeItems options userId previous now listed items).Runs reliable.conduct t log result
      t') :
    ∃ turns, Course options t log turns t' ∧ log.readings = [] ∧
      Takes turns (items.map (·, now)) (∃ listed', result = .ok listed') := by
  induction items generalizing listed t log with
  | nil =>
    obtain ⟨rfl, -, rfl⟩ := runs_done_iff.mp h
    exact ⟨[], .done _, rfl, .nil⟩
  | cons item rest ih =>
    rw [takeItems_cons] at h
    obtain ⟨e, htake, rfl⟩ | ⟨noted, mid, first, last, htake, hrest, rfl⟩ := runs_bind_iff.mp h
    · obtain ⟨turn, hturn, hcourse, hnone⟩ := takeItem_course htake
      exact ⟨[turn], hcourse, hnone, by simp [hturn], nofun⟩
    obtain ⟨turn, hturn, hcourse, hnone⟩ := takeItem_course htake
    obtain ⟨turns, hcourses, hnone', htakes⟩ := ih hrest
    have hone : Takes [turn] [(item, now)] True := ⟨by simp [hturn], fun _ => by simp [hturn]⟩
    exact ⟨turn :: turns, hcourse.append hcourses, by simp [hnone, hnone'], hone.append htakes⟩

theorem walk_course {budget : Nat} {page : Page StarredRepo}
    {result : Except Fault (List Int × Bool)} (huser : (t.user? user.id).isSome)
    (h : (walk options identity user previous budget listed page).Runs reliable.conduct t log result
      t') : TurnByTurn options (page :: log.pages) t log t' := by
  -- each page is taken at the reading that follows it in the log
  induction budget generalizing listed t log page with
  | zero =>
    obtain ⟨rfl, -, rfl⟩ := runs_stop_iff.mp h
    exact ⟨[], .done _, .nil⟩
  | succ budget ih =>
    obtain ⟨now, log₁, h₁, rfl⟩ := Work.runs_clock_bind_iff.mp h
    rw [Log.pages_clock]
    obtain ⟨e, htake, rfl⟩ | ⟨taken, t₁, log₂, log₃, htake, h₂, rfl⟩ := runs_bind_iff.mp h₁
    · obtain ⟨turns, hcourse, hnone, htakes⟩ := takeItems_course htake
      obtain ⟨-, hpages, -⟩ := takeItems_runs (runs_fallible htake)
      refine ⟨turns, .aside trivial rfl hcourse, ?_⟩
      rw [hpages, Log.readings_clock, hnone, Log.occurrences_cons, Log.occurrences_nil,
        List.append_nil]
      refine htakes.imp fun hcalendar => ?_
      exact (takeItems_reliable huser htake).resolve_right fun ⟨_, hout⟩ => by
        simpa [hout] using hcalendar now List.mem_cons_self
    obtain ⟨turns, hcourse, hnone, htakes⟩ := takeItems_course htake
    obtain ⟨hfollowed, hpages, -⟩ := takeItems_runs (runs_fallible htake)
    rw [Log.pages_append, hpages, List.nil_append]
    refine TurnByTurn.page hcourse hnone (htakes.imp fun _ => ⟨taken, rfl⟩) ?_
    split_ifs at h₂
    · obtain ⟨rfl, -, rfl⟩ := runs_done_iff.mp h₂
      exact .done _ _
    obtain ⟨answer, log₄, h₃, rfl⟩ := Work.runs_github_bind_iff.mp h₂
    refine .aside trivial rfl rfl ?_
    cases answer with
    | error e =>
      obtain ⟨rfl, -, rfl⟩ := runs_done_iff.mp h₃
      exact .done _ _
    | ok next => exact ih (hfollowed.user?_eq user.id ▸ huser) h₃

theorem settle_spares {result : Except Fault Outcome}
    (h : (settle userId previous listed).Runs reliable.conduct t log result t') :
    (∀ event ∈ log, event.query.SparesRepos) ∧ log.pages = [] ∧ log.readings = [] := by
  obtain rfl | ⟨gone, answer, rfl⟩ := settle_asked h
  · exact ⟨List.forall_mem_nil _, rfl, rfl⟩
  · exact ⟨List.forall_mem_singleton.mpr trivial, rfl, rfl⟩

theorem walkAndSettle_course {page : Page StarredRepo} {result : Except Fault Outcome}
    (huser : (t.user? user.id).isSome)
    (h : (walkAndSettle options identity user previous page).Runs reliable.conduct t log result
      t') : TurnByTurn options (page :: log.pages) t log t' := by
  obtain ⟨e, hwalk, -⟩ | ⟨⟨listed, whole⟩, mid, log₁, log₂, hwalk, hend, rfl⟩ :=
    runs_bind_iff.mp h
  · exact walk_course huser hwalk
  obtain ⟨turns, hcourse, htakes⟩ := walk_course huser hwalk
  have hspares : (∀ event ∈ log₂, event.query.SparesRepos) ∧ Log.pages log₂ = [] ∧
      Log.readings log₂ = [] := by
    dsimp only at hend
    split_ifs at hend
    · exact settle_spares hend
    · obtain ⟨rfl, -⟩ := runs_done_iff.mp hend
      exact ⟨List.forall_mem_nil _, rfl, rfl⟩
  obtain ⟨hspares, hpages, hnone⟩ := hspares
  have hcourse' : Course options t (log₁ ++ log₂) (turns ++ []) t' :=
    hcourse.append (.of_runs hend hspares)
  refine ⟨turns, List.append_nil turns ▸ hcourse', ?_⟩
  rw [Log.pages_append, Log.readings_append, hpages, hnone, List.append_nil, List.append_nil]
  exact htakes.imp fun hcalendar => hcalendar.mono (List.subset_append_left _ _)

theorem refused_course {e : ApiError} {result : Except Fault Outcome}
    (h : (refused user e).Runs reliable.conduct t log result t') :
    TurnByTurn options log.pages t log t' := by
  obtain rfl | ⟨now, answer, rfl⟩ := refused_asked h
  · exact ⟨[], .of_runs h (List.forall_mem_nil _), .nil⟩
  · have hspares : ∀ event ∈ [(⟨.clock, now⟩ : Answered Task),
        ⟨.store (.markUserRemoved user.id now), answer⟩], event.query.SparesRepos :=
      List.forall_mem_cons.mpr ⟨trivial, List.forall_mem_singleton.mpr trivial⟩
    exact ⟨[], .of_runs h hspares, .nil⟩

theorem reconcile_course {result : Except Fault Outcome} (huser : (t.user? user.id).isSome)
    (h : (reconcile options identity user).Runs reliable.conduct t log result t') :
    TurnByTurn options log.pages t log t' := by
  obtain ⟨e, hstars, -⟩ | ⟨previous, mid, log₁, hstars, h₁, rfl⟩ := Work.runs_store_bind_iff.mp h
  · simp at hstars
  obtain ⟨-, hmid⟩ := reliable_findStars_iff.mp hstars
  refine .aside trivial rfl hstars ?_
  obtain ⟨answer, rest, hrest, rfl⟩ := Work.runs_github_bind_iff.mp h₁
  refine .aside trivial rfl rfl ?_
  cases answer with
  | error e => exact refused_course hrest
  | ok page => exact walkAndSettle_course (hmid ▸ huser) hrest

theorem syncStars_course {result : Except Fault Outcome}
    (h : (syncStars options identity userId).Runs fallible.conduct t log result t')
    (hstored : log.Stored) : TurnByTurn options log.pages t log t' := by
  obtain ⟨e, hfind, -⟩ | ⟨found, mid, log₁, hfind, h₁, rfl⟩ :=
    Work.runs_store_bind_iff.mp (hstored.runs_reliable h)
  · simp at hfind
  obtain ⟨hfound, hmid⟩ := reliable_findUser_iff.mp hfind
  refine .aside trivial rfl hfind ?_
  cases found with
  | none =>
    obtain ⟨rfl, -, rfl⟩ := runs_done_iff.mp h₁
    exact .done _ _
  | some user =>
    dsimp only at h₁
    split_ifs at h₁
    · obtain ⟨rfl, -, rfl⟩ := runs_done_iff.mp h₁
      exact .done _ _
    obtain ⟨answer, rest, hrest, rfl⟩ := Work.runs_probe_bind_iff.mp h₁
    refine .aside trivial rfl rfl ?_
    split_ifs at hrest
    · have huser : mid.user? user.id = some user := by
        rw [hmid, Tables.user?_id (Except.ok.inj hfound).symm, Except.ok.inj hfound]
      exact reconcile_course (huser ▸ rfl) hrest
    · obtain ⟨rfl, -, rfl⟩ := runs_done_iff.mp hrest
      exact .done _ _

end StarSync
end ReleaseTracker
