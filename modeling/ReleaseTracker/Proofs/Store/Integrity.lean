import Mathlib.Data.List.Nodup
import ReleaseTracker.Proofs.Store.Keys
import ReleaseTracker.Proofs.Sync.Surroundings
import ReleaseTracker.Store.Schema
import ReleaseTracker.Work.Engine

/-! The keys of a database over its whole life. Rows are put in and deleted by hand, the store is
called, and items are worked on, in any order. What would break a key is refused and changes
nothing, so the keys hold wherever this leads. -/

namespace ReleaseTracker
open Program StoreRule

inductive Statement where
  | insertUser (user : User)
  | insertRepo (repo : Repo)
  | insertStar (star : Star)
  | insertVersion (version : Version)
  | deleteUser (id : Int)
  | deleteRepo (id : Int)
deriving DecidableEq, Repr

def Statement.effect? : Statement → Tables → Option Tables
  | .insertUser user, t => t.insertUser? user
  | .insertRepo repo, t => t.insertRepo? repo
  | .insertStar star, t => t.insertStar? star
  | .insertVersion version, t => t.insertVersion? version
  | .deleteUser id, t => some (t.deleteUser id)
  | .deleteRepo id, t => some (t.deleteRepo id)

namespace Tables
variable {t t' : Tables}

/-- Would a statement keep the keys? A new row must be the only one under its unique keys, and what
it refers to must be there. -/
def Accepts (t : Tables) : Statement → Prop
  | .insertUser user => user.id ∉ t.users.map (·.id) ∧ user.username ∉ t.users.map (·.username)
  | .insertRepo repo => repo.id ∉ t.repos.map (·.id)
  | .insertStar star => t.hasStar star.userId star.repoId = false ∧
      (t.user? star.userId).isSome ∧ (t.repo? star.repoId).isSome
  | .insertVersion version => t.hasVersion version.repoId version.tagName = false ∧
      (t.repo? version.repoId).isSome
  | .deleteUser _ => True
  | .deleteRepo _ => True

theorem insertUser?_eq_some_iff {user : User} : t.insertUser? user = some t' ↔
    t.Accepts (.insertUser user) ∧ t' = { t with users := t.users ++ [user] } := by
  have hclash : (t.users.any fun other => other.id = user.id || other.username = user.username) =
      true ↔ ¬ t.Accepts (.insertUser user) := by
    simp only [Accepts, List.any_eq_true, List.mem_map, not_and_or, not_not]
    constructor
    · rintro ⟨other, hother, hsame⟩
      rcases (Bool.or_eq_true _ _).mp hsame with hid | hname
      · exact .inl ⟨other, hother, of_decide_eq_true hid⟩
      · exact .inr ⟨other, hother, of_decide_eq_true hname⟩
    · rintro (⟨other, hother, hsame⟩ | ⟨other, hother, hsame⟩)
      · exact ⟨other, hother, by simp [hsame]⟩
      · exact ⟨other, hother, by simp [hsame]⟩
  unfold insertUser?
  split_ifs with hbroken
  · simp [hclash.mp hbroken]
  · rw [Option.some_inj, eq_comm, and_iff_right (not_not.mp (mt hclash.mpr hbroken))]

theorem insertRepo?_eq_some_iff {repo : Repo} : t.insertRepo? repo = some t' ↔
    t.Accepts (.insertRepo repo) ∧ t' = { t with repos := t.repos ++ [repo] } := by
  have hclash : (t.repos.any (·.id = repo.id)) = true ↔ ¬ t.Accepts (.insertRepo repo) := by
    simp [Accepts]
  unfold insertRepo?
  split_ifs with hbroken
  · simp [hclash.mp hbroken]
  · rw [Option.some_inj, eq_comm, and_iff_right (not_not.mp (mt hclash.mpr hbroken))]

theorem insertStar?_eq_some_iff {star : Star} : t.insertStar? star = some t' ↔
    t.Accepts (.insertStar star) ∧ t' = { t with stars := t.stars ++ [star] } := by
  have hclash : (t.hasStar star.userId star.repoId || !t.hasEnds star) = true ↔
      ¬ t.Accepts (.insertStar star) := by
    cases hstar : t.hasStar star.userId star.repoId with
    | true => simp [Accepts, hstar]
    | false => simp [Accepts, hasEnds, hstar, imp_iff_not_or]
  unfold insertStar?
  split_ifs with hbroken
  · simp [hclash.mp hbroken]
  · rw [Option.some_inj, eq_comm, and_iff_right (not_not.mp (mt hclash.mpr hbroken))]

theorem effect?_isSome_iff {statement : Statement} :
    (statement.effect? t).isSome ↔ t.Accepts statement := by
  rw [Option.isSome_iff_exists]
  cases statement with
  | insertUser user => simp [Statement.effect?, insertUser?_eq_some_iff]
  | insertRepo repo => simp [Statement.effect?, insertRepo?_eq_some_iff]
  | insertStar star => simp [Statement.effect?, insertStar?_eq_some_iff]
  | insertVersion version =>
    simp [Statement.effect?, insertVersion?_eq_some_iff, Accepts]
  | deleteUser id => simp [Statement.effect?, Accepts]
  | deleteRepo id => simp [Statement.effect?, Accepts]

/-! Statements keep the keys -/

theorem Keyed.empty : Tables.empty.Keyed where
  userIds := List.nodup_nil
  usernames := List.nodup_nil
  repoIds := List.nodup_nil
  stars := List.nodup_nil
  starEnds := List.forall_mem_nil _
  versions := List.nodup_nil
  versionRepos := List.forall_mem_nil _

theorem Keyed.insertUser (h : t.Keyed) {user : User} (haccepts : t.Accepts (.insertUser user)) :
    ({ t with users := t.users ++ [user] } : Tables).Keyed where
  userIds := by
    rw [List.map_append, List.map_singleton, ← List.concat_eq_append]
    exact h.userIds.concat haccepts.1
  usernames := by
    rw [List.map_append, List.map_singleton, ← List.concat_eq_append]
    exact h.usernames.concat haccepts.2
  repoIds := h.repoIds
  stars := h.stars
  starEnds star hstar := by
    obtain ⟨huser, hrepo⟩ := h.starEnds star hstar
    rw [List.map_append]
    exact ⟨List.mem_append_left _ huser, hrepo⟩
  versions := h.versions
  versionRepos := h.versionRepos

theorem Keyed.insertRepo (h : t.Keyed) {repo : Repo} (haccepts : t.Accepts (.insertRepo repo)) :
    ({ t with repos := t.repos ++ [repo] } : Tables).Keyed := by
  refine h.of_ids rfl rfl ?_ ?_ rfl rfl
  · rw [List.map_append, List.map_singleton, ← List.concat_eq_append]
    exact h.repoIds.concat haccepts
  · rw [List.map_append]
    exact List.subset_append_left _ _

theorem mem_map_filter_ne {ρ : Type} {key : ρ → Int} {rows : List ρ} {gone id : Int} :
    id ∈ (rows.filter (key · ≠ gone)).map key ↔ id ∈ rows.map key ∧ id ≠ gone := by
  simp only [List.mem_map, List.mem_filter, decide_eq_true_eq]
  constructor
  · rintro ⟨row, ⟨hrow, hne⟩, rfl⟩
    exact ⟨⟨row, hrow, rfl⟩, hne⟩
  · rintro ⟨⟨row, hrow, rfl⟩, hne⟩
    exact ⟨row, ⟨hrow, hne⟩, rfl⟩

theorem Keyed.deleteUser (h : t.Keyed) (id : Int) : (t.deleteUser id).Keyed where
  userIds := (List.filter_sublist.map _).nodup h.userIds
  usernames := (List.filter_sublist.map _).nodup h.usernames
  repoIds := h.repoIds
  stars := (List.filter_sublist.map _).nodup h.stars
  starEnds star hstar := by
    obtain ⟨hmem, hother⟩ := List.mem_filter.mp hstar
    obtain ⟨huser, hrepo⟩ := h.starEnds star hmem
    exact ⟨mem_map_filter_ne.mpr ⟨huser, of_decide_eq_true hother⟩, hrepo⟩
  versions := h.versions
  versionRepos := h.versionRepos

theorem Keyed.deleteRepo (h : t.Keyed) (id : Int) : (t.deleteRepo id).Keyed where
  userIds := h.userIds
  usernames := h.usernames
  repoIds := (List.filter_sublist.map _).nodup h.repoIds
  stars := (List.filter_sublist.map _).nodup h.stars
  starEnds star hstar := by
    obtain ⟨hmem, hother⟩ := List.mem_filter.mp hstar
    obtain ⟨huser, hrepo⟩ := h.starEnds star hmem
    exact ⟨huser, mem_map_filter_ne.mpr ⟨hrepo, of_decide_eq_true hother⟩⟩
  versions := (List.filter_sublist.map _).nodup h.versions
  versionRepos row hrow := by
    obtain ⟨hmem, hother⟩ := List.mem_filter.mp hrow
    exact mem_map_filter_ne.mpr ⟨h.versionRepos row hmem, of_decide_eq_true hother⟩

theorem Keyed.effect (h : t.Keyed) {statement : Statement}
    (heffect : statement.effect? t = some t') : t'.Keyed := by
  cases statement with
  | insertUser user =>
    obtain ⟨haccepts, rfl⟩ := insertUser?_eq_some_iff.mp heffect
    exact h.insertUser haccepts
  | insertRepo repo =>
    obtain ⟨haccepts, rfl⟩ := insertRepo?_eq_some_iff.mp heffect
    exact h.insertRepo haccepts
  | insertStar star =>
    obtain ⟨⟨hnew, huser, hrepo⟩, rfl⟩ := insertStar?_eq_some_iff.mp heffect
    exact h.addStar hnew huser hrepo
  | insertVersion version =>
    obtain ⟨hversion, rfl⟩ := insertVersion?_eq_some_iff.mp heffect
    exact h.addVersions (fits_cons_iff.mpr ⟨hversion, fits_nil _⟩)
  | deleteUser id =>
    obtain rfl := Option.some.inj heffect
    exact h.deleteUser id
  | deleteRepo id =>
    obtain rfl := Option.some.inj heffect
    exact h.deleteRepo id

theorem Keyed.perform_any (h : t.Keyed) (now : Instant) (call : StoreCall) :
    (t.perform now call).2.Keyed := by
  by_cases hadmits : t.Admits call
  · exact h.perform hadmits
  cases hanswer : (t.perform now call).1 with
  | ok value => exact absurd (perform_ok_iff.mp ⟨value, hanswer⟩) hadmits
  | error e =>
    have hsame : (t.perform now call).2 = t := perform_error (Prod.ext hanswer rfl)
    rw [hsame]
    exact h

end Tables

theorem StoreRule.keyed_of_fallible {t t' : Tables} {call : StoreCall}
    {answer : Except StoreError call.Result} (h : fallible t call answer t') (hkeyed : t.Keyed) :
    t'.Keyed := by
  rcases h with ⟨now, hperform⟩ | ⟨_, -, rfl | ⟨id, draft, -, -, rfl⟩⟩
  · have hafter := hkeyed.perform_any now call
    rwa [hperform] at hafter
  · exact hkeyed
  · exact hkeyed.upsertRepo id draft

theorem StoreRule.keyed_of_fallible_conduct {t t' : Tables} {query : Task.Query}
    {answer : Task.Answer query} (h : fallible.conduct t query answer t') (hkeyed : t.Keyed) :
    t'.Keyed := by
  cases query with
  | store call => exact keyed_of_fallible h hkeyed
  | _ =>
    obtain rfl : t' = t := h
    exact hkeyed

/-! The life of a database -/

namespace Database
variable {db : Database}

def execute (db : Database) (statement : Statement) : Except StoreError Unit × Database :=
  match db.change statement.effect? with
  | .ok db' => (.ok (), db')
  | .error e => (.error e, db)

/-- What a database may come to. Work on an item may meet any GitHub and any failures of the
store. -/
inductive Reachable : Database → Prop
  | migrated : Reachable .migrated
  | executed {db : Database} (before : Reachable db) (statement : Statement) :
      Reachable (db.execute statement).2
  | called {db : Database} (before : Reachable db) (now : Instant) (call : StoreCall) :
      Reachable (db.perform now call).2
  | worked {t t' : Tables} (before : Reachable ⟨some t⟩) {engine : Engine} {item : WorkItem}
      {log : Log} {result : Except Fault Outcome}
      (run : (engine.handle item).Runs fallible.conduct t log result t') : Reachable ⟨some t'⟩

theorem execute_some (t : Tables) (statement : Statement) :
    (⟨some t⟩ : Database).execute statement =
      match statement.effect? t with
      | some t' => (.ok (), ⟨some t'⟩)
      | none => (.error .brokenKey, ⟨some t⟩) := by
  unfold execute change
  dsimp only
  cases statement.effect? t <;> rfl

theorem perform_some (t : Tables) (now : Instant) (call : StoreCall) :
    (⟨some t⟩ : Database).perform now call =
      ((t.perform now call).1, ⟨some (t.perform now call).2⟩) := rfl

theorem Reachable.keyed (h : Reachable db) : ∃ t, db.tables = some t ∧ t.Keyed := by
  induction h with
  | migrated => exact ⟨.empty, rfl, .empty⟩
  | @executed db _ statement ih =>
    obtain ⟨tables⟩ := db
    obtain ⟨t, rfl, hkeyed⟩ := ih
    rw [execute_some]
    cases heffect : statement.effect? t with
    | none => exact ⟨t, rfl, hkeyed⟩
    | some t' => exact ⟨t', rfl, hkeyed.effect heffect⟩
  | @called db _ now call ih =>
    obtain ⟨tables⟩ := db
    obtain ⟨t, rfl, hkeyed⟩ := ih
    exact ⟨_, rfl, hkeyed.perform_any now call⟩
  | @worked t t' _ _ _ _ _ hrun ih =>
    obtain ⟨t₀, ht₀, hkeyed⟩ := ih
    obtain rfl := Option.some.inj ht₀
    exact ⟨t', rfl, hrun.keeps (fun _ _ _ _ => keyed_of_fallible_conduct) hkeyed⟩

/-- The keys of a database hold at any time. Of what is done to it, exactly what keeps them is
accepted, and what is rejected leaves it as it is. -/
theorem reachable_keeps_integrity (h : Reachable db) : ∃ t, db.tables = some t ∧ t.Keyed ∧
    (∀ statement, (db.execute statement).1 = .ok () ↔ t.Accepts statement) ∧
    (∀ now call, (∃ value, (db.perform now call).1 = .ok value) ↔ t.Admits call) ∧
    (∀ statement e, (db.execute statement).1 = .error e → (db.execute statement).2 = db) ∧
    ∀ now call e, (db.perform now call).1 = .error e → (db.perform now call).2 = db := by
  obtain ⟨t, htables, hkeyed⟩ := h.keyed
  obtain ⟨tables⟩ := db
  obtain rfl : tables = some t := htables
  refine ⟨t, rfl, hkeyed, fun statement => ?_, fun now call => Tables.perform_ok_iff,
    fun statement e hfailed => ?_, fun now call e hfailed => ?_⟩
  · rw [execute_some, ← Tables.effect?_isSome_iff]
    cases statement.effect? t <;> simp
  · rw [execute_some] at hfailed ⊢
    cases heffect : statement.effect? t with
    | none => rfl
    | some t' =>
      rw [heffect] at hfailed
      cases hfailed
  · rw [perform_some] at hfailed ⊢
    have hsame : (t.perform now call).2 = t := Tables.perform_error (Prod.ext hfailed rfl)
    rw [hsame]

namespace Sample

def time : Instant := ⟨1700000000, 0⟩

def user (id : Int) (name : String) : User := ⟨id, name, none, none, "", .utc time, none⟩

def repo (id : Int) : Repo := ⟨id, "o/r", "r", none, none, none, none, .utc time, none⟩

def version (repoId : Int) (tag : String) : Version := ⟨repoId, tag, tag, false, "", .utc time⟩

def stocked : Database :=
  ⟨some ⟨[user 1 "ann", user 2 "Ann"], [repo 5, repo 6],
    [⟨1, 5, .utc time⟩, ⟨1, 6, .utc time⟩, ⟨2, 5, .utc time⟩, ⟨2, 6, .utc time⟩],
    [version 5 "v1", version 6 "v1"]⟩⟩

theorem stocked_reachable : stocked.Reachable := by
  have husers := (Reachable.migrated.executed (.insertUser (user 1 "ann"))).executed
    (.insertUser (user 2 "Ann"))
  have hrepos := (husers.executed (.insertRepo (repo 5))).executed (.insertRepo (repo 6))
  have hstars := (((hrepos.called time (.createStar 1 5)).called time (.createStar 1 6)).called time
    (.createStar 2 5)).called time (.createStar 2 6)
  exact hstars.called time (.createVersions [version 5 "v1", version 6 "v1"])

end Sample

/-- The user and the repository that go take their stars and versions with them. Of a batch nothing
is stored if one of its rows repeats a tag. -/
theorem reachable_keeps_integrity_after_cascades :
    let db := ((Sample.stocked.execute (.deleteUser 2)).2.execute (.deleteRepo 6)).2
    db = ⟨some ⟨[Sample.user 1 "ann"], [Sample.repo 5], [⟨1, 5, .utc Sample.time⟩],
      [Sample.version 5 "v1"]⟩⟩ ∧
    (∃ t, db.tables = some t ∧ t.Keyed) ∧
    (db.perform Sample.time (.createVersions
      [Sample.version 5 "v2", Sample.version 5 "v1", Sample.version 5 "v3"])).2 = db := by
  intro db
  have hreachable : db.Reachable :=
    (Sample.stocked_reachable.executed (.deleteUser 2)).executed (.deleteRepo 6)
  obtain ⟨t, htables, hkeyed, -, -, -, hrejected⟩ := reachable_keeps_integrity hreachable
  refine ⟨by decide, ⟨t, htables, hkeyed⟩, hrejected Sample.time _ .brokenKey ?_⟩
  decide

end Database
end ReleaseTracker
