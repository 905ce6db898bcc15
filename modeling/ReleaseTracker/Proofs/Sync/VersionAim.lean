import ReleaseTracker.Proofs.Sync.Inquiry
import ReleaseTracker.Sync.Versions

/-! A synchronisation of versions in two parts: first it finds out what to do, which changes
nothing, and then it does it. -/

namespace ReleaseTracker
open GitHub (ApiCall Tag)
open Program

namespace VersionSync

inductive Aim where
  | ended (outcome : Outcome)
  | refused (repo : Repo) (e : ApiError)
  | tags (repo : Repo) (tags : List Tag)

def aimAt (identity : Identity) (repo : Repo) : Work Aim :=
  (Work.github identity (.hasTags repo.fullName)).bind fun (tagged : Except ApiError Bool) =>
    match tagged with
    | .error e => .done (.refused repo e)
    | .ok false => .done (.ended (.completed 0))
    | .ok true =>
      (Work.github identity (.allTags repo.fullName)).bind
        fun (listed : Except ApiError (List Tag)) =>
          match listed with
          | .error e => .done (.refused repo e)
          | .ok tags => .done (.tags repo tags)

def aim (identity : Identity) : Option Repo → Work Aim
  | none => .done (.ended (.aborted .repoNotFound))
  | some repo =>
    if repo.isRemoved then .done (.ended (.aborted .alreadyRemoved))
    else
      (Work.probe identity).bind fun quota =>
        if quota.isUsable then aimAt identity repo
        else .done (.ended (.aborted .quotaExhausted))

def pursue (options : SyncOptions) (identity : Identity) : Aim → Work Outcome
  | .ended outcome => .done outcome
  | .refused repo e => refused repo e
  | .tags repo tags =>
    (takeTags options identity repo .empty tags).bind fun (staging, reason) =>
      finish repo staging reason

variable {options : SyncOptions} {identity : Identity} {repo : Repo} {found : Option Repo}
  {repoId : Int}

theorem reconcile_eq :
    reconcile options identity repo = (aimAt identity repo).bind (pursue options identity) := by
  unfold reconcile aimAt
  rw [bind_assoc]
  congr 1
  funext tagged
  match tagged with
  | .error e => rfl
  | .ok false => rfl
  | .ok true =>
    change takeAll options identity repo = _
    unfold takeAll
    rw [bind_assoc]
    congr 1
    funext listed
    cases listed <;> rfl

theorem syncVersions_eq : syncVersions options identity repoId =
    (Work.store (.findRepo repoId)).bind fun (found : Option Repo) =>
      (aim identity found).bind (pursue options identity) := by
  unfold syncVersions
  congr 1
  funext found
  cases found with
  | none => rfl
  | some repo =>
    dsimp only [aim]
    split_ifs
    · rfl
    rw [bind_assoc]
    congr 1
    funext quota
    split_ifs
    · exact reconcile_eq
    · rfl

/-! What an aim can be -/

def Aim.Suits (found : Option Repo) : Aim → Prop
  | .ended outcome => outcome = .completed 0 ∨ ∃ reason, outcome = .aborted reason
  | .refused repo _ => found = some repo
  | .tags repo _ => found = some repo

def Aim.hasTags : Aim → Bool
  | .tags _ _ => true
  | _ => false

theorem aimAt_inquiry : (aimAt identity repo).Inquiry (fun call => call.isListing = true)
    (fun _ aim => aim.Suits (some repo) ∧ aim.hasTags = false)
    (fun aim => aim.Suits (some repo)) := by
  refine .github rfl (fun e => ⟨_, rfl, rfl, rfl⟩) fun tagged => ?_
  cases tagged with
  | false => exact .done (.inl rfl)
  | true => exact .github rfl (fun e => ⟨_, rfl, rfl, rfl⟩) fun tags => .done rfl

theorem aim_inquiry : (aim identity found).Inquiry (fun call => call.isListing = true)
    (fun _ aim => aim.Suits found ∧ aim.hasTags = false) (fun aim => aim.Suits found) := by
  cases found with
  | none => exact .done (.inr ⟨_, rfl⟩)
  | some repo =>
    dsimp only [aim]
    split_ifs
    · exact .done (.inr ⟨_, rfl⟩)
    refine Work.probe_inquiry.bind ?_ fun quota _ => ?_
    · rintro call _ rfl
      exact ⟨_, rfl, .inr ⟨_, rfl⟩, rfl⟩
    · split_ifs
      · exact aimAt_inquiry
      · exact .done (.inr ⟨_, rfl⟩)

theorem aim_unrefused : (aim identity found).Inquiry (fun call => call.isListing = true)
    (fun _ _ => True) (fun aim => ∀ repo e, aim ≠ .refused repo e) := by
  have hended (outcome : Outcome) (repo : Repo) (e : ApiError) :
      Aim.ended outcome ≠ .refused repo e := by simp
  cases found with
  | none => exact .done (hended _)
  | some repo =>
    dsimp only [aim]
    split_ifs
    · exact .done (hended _)
    refine Work.probe_inquiry.bind ?_ fun quota _ => ?_
    · rintro call _ rfl
      exact ⟨_, rfl, trivial⟩
    split_ifs
    · refine .github rfl (fun e => ⟨_, rfl, trivial⟩) fun tagged => ?_
      cases tagged with
      | false => exact .done (hended _)
      | true => exact .github rfl (fun e => ⟨_, rfl, trivial⟩) fun tags => .done (by simp)
    · exact .done (hended _)

variable {near : Instant → Instant → Prop}

theorem aimAt_twins : Work.Twins near Eq (aimAt identity repo) (aimAt identity repo) := by
  refine .github fun tagged => ?_
  match tagged with
  | .error e => exact .done rfl
  | .ok false => exact .done rfl
  | .ok true =>
    refine .github fun listed => ?_
    cases listed <;> exact .done rfl

theorem aim_twins : Work.Twins near Eq (aim identity found) (aim identity found) := by
  cases found with
  | none => exact .done rfl
  | some repo =>
    dsimp only [aim]
    split_ifs
    · exact .done rfl
    refine Work.probe_twins.bind ?_
    rintro quota _ rfl
    split_ifs
    · exact aimAt_twins
    · exact .done rfl

/-! What GitHub tells of the tags -/

def tagsOf? (facts : GitHub.Facts) (fullName : String) : Option (List Tag) :=
  match (facts (.hasTags fullName) : Except ApiError Bool) with
  | .ok true => (facts (.allTags fullName) : Except ApiError (List Tag)).toOption
  | .ok false => some []
  | .error _ => none

def target? (facts : GitHub.Facts) (t : Tables) (repoId : Int) : Option (Repo × List Tag) :=
  (t.repo? repoId).bind fun repo =>
    if !repo.isRemoved && (Work.quotaOf (facts .remainingCalls)).isUsable then
      (tagsOf? facts repo.fullName).map fun tags => (repo, tags)
    else none

def Aim.tags? : Aim → Option (List Tag)
  | .ended (.completed _) => some []
  | .tags _ listed => some listed
  | _ => none

variable {rule : StoreRule} {t t' : Tables} {log : Log} {facts : GitHub.Facts} {aimed : Aim}

theorem aimAt_tags? (hrun : (aimAt identity repo).Runs rule.conduct t log (.ok aimed) t')
    (htold : log.ToldBy facts) : aimed.tags? = tagsOf? facts repo.fullName := by
  obtain ⟨tagged, rest, hrest, rfl⟩ := Work.runs_github_bind_iff.mp hrun
  unfold tagsOf?
  rw [← htold _ _ _ List.mem_cons_self]
  match tagged with
  | .error e | .ok false =>
    obtain ⟨-, haimed, -⟩ := runs_done_iff.mp hrest
    rw [Except.ok.inj haimed]
    rfl
  | .ok true =>
    obtain ⟨listed, last, hlast, rfl⟩ := Work.runs_github_bind_iff.mp hrest
    rw [← htold _ _ _ (List.mem_cons_of_mem _ List.mem_cons_self)]
    cases listed <;>
    · obtain ⟨-, haimed, -⟩ := runs_done_iff.mp hlast
      rw [Except.ok.inj haimed]
      rfl

theorem aim_tags? (hrun : (aim identity (some repo)).Runs rule.conduct t log (.ok aimed) t')
    (htold : log.ToldBy facts) :
    aimed.tags? = if !repo.isRemoved && (Work.quotaOf (facts .remainingCalls)).isUsable then
      tagsOf? facts repo.fullName else none := by
  dsimp only [aim] at hrun
  split_ifs at hrun with hremoved
  · obtain ⟨-, haimed, -⟩ := runs_done_iff.mp hrun
    rw [Except.ok.inj haimed, hremoved]
    rfl
  obtain ⟨calls, rest, hrest, rfl⟩ := Work.runs_probe_bind_iff.mp hrun
  rw [← show calls = facts .remainingCalls from htold _ _ _ List.mem_cons_self]
  split_ifs at hrest with husable
  · rw [aimAt_tags? hrest (htold.mono (List.subset_cons_self _ _)), if_pos]
    simp [hremoved, husable]
  · obtain ⟨-, haimed, -⟩ := runs_done_iff.mp hrest
    rw [Except.ok.inj haimed, if_neg]
    · rfl
    · simp [husable]

theorem target?_eq_some_iff {tags : List Tag} : target? facts t repoId = some (repo, tags) ↔
    t.repo? repoId = some repo ∧
      (!repo.isRemoved && (Work.quotaOf (facts .remainingCalls)).isUsable) = true ∧
        tagsOf? facts repo.fullName = some tags := by
  unfold target?
  rw [Option.bind_eq_some_iff]
  constructor
  · rintro ⟨found, hfound, hopen⟩
    split_ifs at hopen with h
    obtain ⟨listed, hlisted, heq⟩ := Option.map_eq_some_iff.mp hopen
    cases heq
    exact ⟨hfound, h, hlisted⟩
  · rintro ⟨hfound, hopen, hlisted⟩
    exact ⟨repo, hfound, by rw [if_pos hopen, hlisted, Option.map_some]⟩

theorem target?_of_tagged {tags : List Tag} {calls : Nat} (hrepo : t.repo? repoId = some repo)
    (hactive : repo.isRemoved = false) (hcalls : facts .remainingCalls = .ok calls)
    (husable : 0 < calls) (htagged : facts (.hasTags repo.fullName) = .ok true)
    (htags : facts (.allTags repo.fullName) = .ok tags) :
    target? facts t repoId = some (repo, tags) := by
  refine target?_eq_some_iff.mpr ⟨hrepo, ?_, ?_⟩
  · rw [hcalls]
    simp [hactive, Work.quotaOf, Quota.isUsable, husable]
  · unfold tagsOf?
    rw [htagged, htags]
    rfl

theorem target?_congr {start : Tables} (h : t = { start with versions := t.versions }) :
    target? facts t repoId = target? facts start repoId := by
  rw [h]
  rfl

theorem aim_target? {s s' : Tables}
    (hrun : (aim identity (t.repo? repoId)).Runs rule.conduct s log (.ok aimed) s')
    (htold : log.ToldBy facts) : aimed.tags? = (target? facts t repoId).map (·.2) := by
  unfold target?
  cases hfound : t.repo? repoId with
  | none =>
    rw [hfound] at hrun
    obtain ⟨-, haimed, -⟩ := runs_done_iff.mp hrun
    rw [Except.ok.inj haimed]
    rfl
  | some repo =>
    rw [hfound] at hrun
    rw [aim_tags? hrun htold, Option.bind_some]
    split_ifs
    · rw [Option.map_map]
      exact Option.map_id'.symm
    · rfl

end VersionSync
end ReleaseTracker
