import ReleaseTracker.Proofs.Store.Integrity
import ReleaseTracker.Proofs.Sync.StarLog
import ReleaseTracker.Proofs.Sync.VersionInterruption

/-! Tables that synchronisations of stars work on, perhaps several at a time. A run creates stars
only to what is on the listing of its user, and deletes only others (`Tends`). So whatever the runs
do, stars to what is listed are kept and no others are gained (`Tended`), and what a run was
answered goes on to tell of the tables (`Shows`). -/

namespace ReleaseTracker
open GitHub (ApiCall Page StarredRepo)
open Program StoreRule

namespace StarSync

def Targets (listing : GitHub.StarListing) (perPage : Nat) (t : Tables) (userId : Int) : Set Int :=
  {id | ∃ user pages, t.user? userId = some user ∧
    listing.Gives user.username perPage pages ∧ id ∈ listedIds pages}

def Tends (own : Set Int) (targets : Int → Set Int) : Task.Query → Prop
  | .store (.upsertRepo draft) => draft.id ≠ .unset
  | .store (.createStar userId repoId) => userId ∈ own ∧ repoId ∈ targets userId
  | .store (.deleteStars gone userId) => userId ∈ own ∧ ∀ id ∈ gone, id ∉ targets userId
  | .store call => call.isWrite = false
  | _ => True

structure Tended (own : Set Int) (targets : Int → Set Int) (t t' : Tables) : Prop where
  users : t'.users = t.users
  repos : ∀ id, (t.repo? id).isSome → (t'.repo? id).isSome
  kept : ∀ userId, ∀ id ∈ t.starsOf userId, id ∈ targets userId → id ∈ t'.starsOf userId
  gained : ∀ userId, ∀ id ∈ t'.starsOf userId, id ∈ t.starsOf userId ∨ id ∈ targets userId
  others : ∀ userId ∉ own,
    t'.stars.filter (·.userId = userId) = t.stars.filter (·.userId = userId)
  keyed : t.Keyed → t'.Keyed

def Shows (targets : Int → Set Int) (t : Tables) : Answered Task → Prop
  | ⟨.store (.findUser userId), answer⟩ => answer = Except.ok (t.user? userId)
  | ⟨.store (.findRepo id), answer⟩ =>
    ∀ row, answer = Except.ok (some row) → (t.repo? id).isSome
  | ⟨.store (.upsertRepo draft), _⟩ => ∀ id, draft.id = .set id → (t.repo? id).isSome
  | ⟨.store (.findStars userId), answer⟩ => ∀ previous, answer = Except.ok previous →
    (∀ id ∈ previous, id ∈ targets userId → id ∈ t.starsOf userId) ∧
      ∀ id ∈ t.starsOf userId, id ∈ previous ∨ id ∈ targets userId
  | ⟨.store (.createStar userId id), answer⟩ =>
    answer = Except.ok () → id ∈ targets userId → id ∈ t.starsOf userId
  | ⟨.store (.deleteStars gone userId), _⟩ =>
    ∀ id ∈ gone, id ∈ t.starsOf userId → id ∈ targets userId
  | _ => True

variable {own : Set Int} {targets : Int → Set Int} {t t' t'' : Tables} {options : SyncOptions}
  {userId : Int} {log : Log} {listing : GitHub.StarListing}

theorem Tended.refl (t : Tables) : Tended own targets t t where
  users := rfl
  repos _ h := h
  kept _ _ h _ := h
  gained _ _ h := .inl h
  others _ _ := rfl
  keyed h := h

theorem Tended.trans (h : Tended own targets t t') (h' : Tended own targets t' t'') :
    Tended own targets t t'' where
  users := h'.users.trans h.users
  repos id hid := h'.repos id (h.repos id hid)
  kept userId id hid htarget := h'.kept userId id (h.kept userId id hid htarget) htarget
  gained userId id hid := (h'.gained userId id hid).elim (h.gained userId id) .inr
  others userId hother := (h'.others userId hother).trans (h.others userId hother)
  keyed hkeyed := h'.keyed (h.keyed hkeyed)

theorem Tended.user?_eq (h : Tended own targets t t') (id : Int) : t'.user? id = t.user? id := by
  simp only [Tables.user?, h.users]

theorem targets_congr (husers : t'.users = t.users) (perPage : Nat) :
    Targets listing perPage t' = Targets listing perPage t := by
  have huser (id : Int) : t'.user? id = t.user? id := by simp only [Tables.user?, husers]
  funext userId
  simp only [Targets, huser]

/-! Single answers -/

theorem starsOf_eq_of_stars (h : t'.stars = t.stars) (userId : Int) :
    t'.starsOf userId = t.starsOf userId := by
  rw [Tables.starsOf, Tables.starsOf, h]

theorem tended_of_stars (husers : t'.users = t.users) (hstars : t'.stars = t.stars)
    (hrepos : ∀ id, (t.repo? id).isSome → (t'.repo? id).isSome) (hkeyed : t.Keyed → t'.Keyed) :
    Tended own targets t t' where
  users := husers
  repos := hrepos
  kept userId id hid _ := by rwa [starsOf_eq_of_stars hstars]
  gained userId id hid := by
    rw [starsOf_eq_of_stars hstars] at hid
    exact .inl hid
  others _ _ := by rw [hstars]
  keyed := hkeyed

theorem tended_addStar {star : Star} (hown : star.userId ∈ own)
    (htarget : star.repoId ∈ targets star.userId)
    (hkeyed : t.Keyed → ({ t with stars := t.stars ++ [star] } : Tables).Keyed) :
    Tended own targets t { t with stars := t.stars ++ [star] } where
  users := rfl
  repos _ h := h
  kept userId id hid _ := by
    obtain ⟨old, hold, hends⟩ := Tables.mem_starsOf.mp hid
    exact Tables.mem_starsOf.mpr ⟨old, List.mem_append_left _ hold, hends⟩
  gained userId id hid := by
    obtain ⟨row, hrow, rfl, rfl⟩ := Tables.mem_starsOf.mp hid
    rcases List.mem_append.mp hrow with hrow | hrow
    · exact .inl (Tables.mem_starsOf.mpr ⟨row, hrow, rfl, rfl⟩)
    · rw [List.mem_singleton.mp hrow]
      exact .inr htarget
  others userId hother := by
    have hne : star.userId ≠ userId := fun he => hother (he ▸ hown)
    rw [List.filter_append]
    simp [hne]
  keyed := hkeyed

theorem tended_deleteStars {gone : List Int} (hown : userId ∈ own)
    (hgone : ∀ id ∈ gone, id ∉ targets userId) :
    Tended own targets t (t.deleteStars gone userId) where
  users := rfl
  repos _ h := h
  kept other id hid htarget := by
    obtain ⟨star, hstar, rfl, rfl⟩ := Tables.mem_starsOf.mp hid
    refine Tables.mem_starsOf.mpr ⟨star, Tables.mem_deleteStars.mpr ⟨hstar, ?_⟩, rfl, rfl⟩
    rintro ⟨rfl, hid⟩
    exact hgone _ hid htarget
  gained other id hid := by
    obtain ⟨star, hstar, hends⟩ := Tables.mem_starsOf.mp hid
    exact .inl (Tables.mem_starsOf.mpr ⟨star, (Tables.mem_deleteStars.mp hstar).1, hends⟩)
  others other hother := by
    have hne : userId ≠ other := fun he => hother (he ▸ hown)
    rw [Tables.deleteStars, List.filter_filter]
    refine List.filter_congr fun star _ => ?_
    by_cases hstar : star.userId = other
    · simp [hstar, Tables.isAmong, hne.symm]
    · simp [hstar]
  keyed hkeyed := hkeyed.removeStars _

theorem Tends.tended {query : Task.Query} {answer : Task.Answer query}
    (h : Tends own targets query) (hanswered : reliable.conduct t query answer t') :
    Tended own targets t t' := by
  have hread {call : StoreCall} {answer : Except StoreError call.Result}
      (hcall : call.isWrite = false) (hanswered : reliable t call answer t') :
      Tended own targets t t' := by
    rw [eq_of_not_isWrite hcall (reliable_le_fallible _ _ _ _ hanswered)]
    exact .refl t
  cases query with
  | store call =>
    have hkeyed : t.Keyed → t'.Keyed :=
      fun hkeyed => keyed_of_fallible (reliable_le_fallible _ _ _ _ hanswered) hkeyed
    cases call with
    | upsertRepo draft =>
      cases hid : draft.id with
      | unset => exact absurd hid h
      | set id =>
        obtain ⟨-, rfl⟩ := (reliable_upsertRepo_iff hid).mp hanswered
        exact tended_of_stars rfl rfl (fun _ => Tables.isSome_repo?_upsertRepo) hkeyed
    | createStar userId repoId =>
      obtain ⟨hown, htarget⟩ := h
      obtain ⟨now, ⟨-, hensure⟩ | ⟨-, -, rfl⟩⟩ := reliable_createStar_iff.mp hanswered
      · rcases Tables.ensureStar?_eq_some hensure with ⟨-, rfl⟩ | ⟨-, rfl⟩
        · exact .refl _
        · exact tended_addStar hown htarget hkeyed
      · exact .refl _
    | deleteStars gone userId =>
      obtain ⟨-, rfl⟩ := reliable_deleteStars_iff.mp hanswered
      exact tended_deleteStars h.1 h.2
    | findUser | userCredentials | findRepo | findStars | findExistingVersion | findStargazers
    | activeUserIds | activeRepoIds => exact hread rfl hanswered
    | markUserRemoved | markRepoRemoved | createVersions => cases h
  | github | authenticate | clock | announce =>
    obtain rfl : t' = t := hanswered
    exact .refl _

theorem Shows.mono {event : Answered Task} (h : Shows targets t event)
    (htended : Tended own targets t t') : Shows targets t' event := by
  obtain ⟨query, answer⟩ := event
  cases query with
  | store call =>
    cases call with
    | findUser userId =>
      show answer = Except.ok (t'.user? userId)
      rw [htended.user?_eq]
      exact h
    | findRepo id => exact fun row hrow => htended.repos id (h row hrow)
    | upsertRepo draft => exact fun id hid => htended.repos id (h id hid)
    | findStars userId =>
      intro previous hprevious
      obtain ⟨hkept, hgained⟩ := h previous hprevious
      refine ⟨fun id hid htarget => htended.kept userId id (hkept id hid htarget) htarget,
        fun id hid => ?_⟩
      exact (htended.gained userId id hid).elim (hgained id) .inr
    | createStar userId id =>
      exact fun hok htarget => htended.kept userId id (h hok htarget) htarget
    | deleteStars gone userId =>
      intro id hid hstar
      exact (htended.gained userId id hstar).elim (h id hid) fun htarget => htarget
    | _ => trivial
  | _ => trivial

theorem shows_of_answer {query : Task.Query} {answer : Task.Answer query}
    (hanswered : reliable.conduct t query answer t') : Shows targets t' ⟨query, answer⟩ := by
  cases query with
  | store call =>
    cases call with
    | findUser userId =>
      obtain ⟨hanswer, rfl⟩ := reliable_findUser_iff.mp hanswered
      exact hanswer
    | findRepo id =>
      obtain ⟨rfl, rfl⟩ := reliable_findRepo_iff.mp hanswered
      intro row hrow
      rw [Except.ok.inj hrow]
      rfl
    | upsertRepo draft =>
      intro id hid
      obtain ⟨-, rfl⟩ := (reliable_upsertRepo_iff hid).mp hanswered
      rw [Tables.repo?_upsertRepo, if_pos rfl]
      rfl
    | findStars userId =>
      obtain ⟨rfl, rfl⟩ := reliable_findStars_iff.mp hanswered
      rintro previous ⟨⟩
      exact ⟨fun id hid _ => hid, fun id hid => .inl hid⟩
    | createStar userId repoId =>
      rintro rfl -
      obtain ⟨now, ⟨-, hensure⟩ | ⟨hbroken, -⟩⟩ := reliable_createStar_iff.mp hanswered
      · rcases Tables.ensureStar?_eq_some hensure with ⟨hstar, rfl⟩ | ⟨-, rfl⟩
        · exact Tables.hasStar_iff.mp hstar
        · exact Tables.mem_starsOf.mpr ⟨⟨userId, repoId, .utc now⟩, by simp, rfl, rfl⟩
      · cases hbroken
    | deleteStars gone userId =>
      obtain ⟨-, rfl⟩ := reliable_deleteStars_iff.mp hanswered
      intro id hid hstar
      obtain ⟨star, hstar, hends⟩ := Tables.mem_starsOf.mp hstar
      have hout := (Tables.mem_deleteStars.mp hstar).2
      rw [hends.2] at hout
      exact absurd ⟨hends.1, hid⟩ hout
    | _ => trivial
  | _ => trivial

/-! Runs over a listing -/

theorem shows_stocked (h : ∀ event ∈ log, Shows targets t event) {id : Int}
    (hstocked : log.Stocked id) : (t.repo? id).isSome := by
  obtain ⟨row, hmem⟩ | ⟨draft, row, hdraft, hmem⟩ := hstocked
  · exact h _ hmem row rfl
  · exact h _ hmem id hdraft

theorem shows_user (h : ∀ event ∈ log, Shows targets t event) {found : Option User}
    (hmem : ⟨.store (.findUser userId), Except.ok found⟩ ∈ log) : t.user? userId = found := by
  have hfound : (Except.ok found : Except StoreError (Option User)) = .ok (t.user? userId) :=
    h _ hmem
  exact (Except.ok.inj hfound).symm

/-- What new stars go by is in the tables: the user that was found, and the repositories that were
seen there or stored. -/
structure Backed (userId : Int) (t : Tables) (log : Log) : Prop where
  user : ∀ user : User, ⟨.store (.findUser userId), Except.ok (some user)⟩ ∈ log →
    (t.user? userId).isSome
  repos : ∀ id, log.Stocked id → (t.repo? id).isSome

theorem backed_of_shows (h : ∀ event ∈ log, Shows targets t event) : Backed userId t log where
  user user hmem := by
    rw [shows_user h hmem]
    rfl
  repos _ hstocked := shows_stocked h hstocked

theorem Backed.mono (h : Backed userId t log) (hretains : t.Retains t') : Backed userId t' log where
  user user hmem := hretains.users userId (h.user user hmem)
  repos id hstocked := hretains.repos id (h.repos id hstocked)

theorem Backed.append {more : Log} (h : Backed userId t log) (h' : Backed userId t more) :
    Backed userId t (log ++ more) where
  user user hmem := (List.mem_append.mp hmem).elim (h.user user) (h'.user user)
  repos id hstocked := (Log.stocked_append_iff.mp hstocked).elim (h.repos id) (h'.repos id)

theorem backed_nil : Backed userId t [] := by
  have hshows : ∀ event ∈ ([] : Log), Shows (fun _ => ∅) t event := List.forall_mem_nil _
  exact backed_of_shows hshows

theorem backed_of_answer {query : Task.Query} {answer : Task.Answer query}
    (hanswered : reliable.conduct t query answer t') : Backed userId t' [⟨query, answer⟩] := by
  have hshows : Shows (fun _ => ∅) t' ⟨query, answer⟩ := shows_of_answer hanswered
  exact backed_of_shows (List.forall_mem_singleton.mpr hshows)

theorem Asks.succeeds {call : StoreCall} {answer : Except StoreError call.Result}
    (h : Asks options userId log (.store call)) (hbacked : Backed userId t log)
    (hanswered : reliable t call answer t') : ∃ value, answer = .ok value := by
  obtain ⟨now, hperform⟩ := hanswered
  have hadmits : t.Admits call := by
    cases h with
    | star hfound _ _ hstocked _ => exact .inr ⟨hbacked.user _ hfound, hbacked.repos _ hstocked⟩
    | refresh => simp [Tables.Admits, StarredRepo.draft]
    | _ => trivial
  obtain ⟨value, hvalue⟩ := Tables.perform_ok_iff.mpr hadmits
  rw [hperform] at hvalue
  exact ⟨value, hvalue⟩

theorem mem_targets_iff {perPage : Nat} {user : User} {pages : List (Page StarredRepo)}
    (huser : t.user? userId = some user) (hgives : listing.Gives user.username perPage pages)
    (hwhole : ∃ page ∈ pages, page.isLast = true) {id : Int} :
    id ∈ Targets listing perPage t userId ↔ id ∈ listedIds pages := by
  constructor
  · rintro ⟨other, pages', hother, hgives', hid⟩
    obtain rfl := Option.some.inj (huser.symm.trans hother)
    obtain ⟨rest, rfl⟩ := hgives'.le_whole hgives hwhole
    rw [listedIds_append]
    exact List.mem_append_left _ hid
  · exact fun hid => ⟨user, pages, huser, hgives, hid⟩

theorem Asks.tends {query : Task.Query} (h : Asks options userId log query)
    (hasked : Asked options userId log) (hlisted : log.ListedBy listing)
    (hrefused : ¬ log.Refused) (hown : userId ∈ own)
    (hshows : ∀ event ∈ log, Shows targets t event) :
    Tends own (Targets listing options.pageSize t) query := by
  have hgives {user : User} (hfound : ⟨.store (.findUser userId), Except.ok (some user)⟩ ∈ log) :
      t.user? userId = some user ∧ listing.Gives user.username options.pageSize log.pages := by
    exact ⟨shows_user hshows hfound, hasked.gives (hasked.named hfound) hlisted⟩
  cases h with
  | star hfound _ hid _ _ => exact ⟨hown, _, _, (hgives hfound).1, (hgives hfound).2, hid⟩
  | settle hfound _ hwhole _ hgone =>
    refine ⟨hown, fun id hid htarget => ((hgone id).mp hid).2 ?_⟩
    exact (mem_targets_iff (hgives hfound).1 (hgives hfound).2 hwhole).mp htarget
  | refresh => simp [Tends, StarredRepo.draft]
  | mark _ hmark => exact absurd hmark hrefused
  | user | stars | repo => rfl
  | calls | page | clock => trivial

theorem Asks.answered {query : Task.Query} {answer : Task.Answer query} {start : Tables}
    (h : Asks options userId log query) (hasked : Asked options userId log)
    (hlisted : log.ListedBy listing) (hrefused : ¬ log.Refused) (hown : userId ∈ own)
    (hstart : Tended own (Targets listing options.pageSize start) start t)
    (hshows : ∀ event ∈ log, Shows (Targets listing options.pageSize start) t event)
    (hanswered : reliable.conduct t query answer t') :
    Tended own (Targets listing options.pageSize start) t t' ∧
      Shows (Targets listing options.pageSize start) t' ⟨query, answer⟩ ∧
        ∀ call e, (⟨query, answer⟩ : Answered Task) ≠ ⟨.store call, Except.error e⟩ := by
  have htends : Tends own (Targets listing options.pageSize start) query := by
    rw [← targets_congr hstart.users]
    exact h.tends hasked hlisted hrefused hown hshows
  refine ⟨htends.tended hanswered, shows_of_answer hanswered, fun call e hevent => ?_⟩
  cases hevent
  obtain ⟨value, hvalue⟩ := h.succeeds (backed_of_shows hshows) hanswered
  cases hvalue

theorem Asked.trace {start : Tables} (hasked : Asked options userId log)
    (hlisted : log.ListedBy listing) (hrefused : ¬ log.Refused)
    (htrace : Trace reliable.conduct start log t) :
    Tended {userId} (Targets listing options.pageSize start) start t ∧
      (∀ event ∈ log, Shows (Targets listing options.pageSize start) t event) ∧ log.Stored := by
  induction log using List.reverseRecOn generalizing t with
  | nil =>
    cases htrace
    exact ⟨.refl _, List.forall_mem_nil _, fun _ _ => List.not_mem_nil⟩
  | append_singleton log event ih =>
    obtain ⟨mid, hbefore, hlast⟩ := trace_append_iff.mp htrace
    cases hlast with
    | cons hanswered hend =>
      cases hend
      have hrefused' : ¬ Log.Refused log :=
        fun h => hrefused (h.mono (List.subset_append_left _ _))
      obtain ⟨htended, hshows, hstored⟩ := ih hasked.of_append hlisted.of_append hrefused' hbefore
      obtain ⟨hstep, hshown, hok⟩ := (hasked log event [] rfl).answered hasked.of_append
        hlisted.of_append hrefused' (Set.mem_singleton userId) htended hshows hanswered
      refine ⟨htended.trans hstep, ?_, fun call e hmem => ?_⟩
      · rw [List.forall_mem_append, List.forall_mem_singleton]
        exact ⟨fun event hevent => (hshows event hevent).mono hstep, hshown⟩
      · rcases List.mem_append.mp hmem with hmem | hmem
        · exact hstored call e hmem
        · exact hok call e (List.mem_singleton.mp hmem).symm

/-- After a run that completed its user stars exactly what was listed, as long as the tables were
only tended since. -/
theorem Ends.starred {n : Nat} (h : Ends options userId log (.ok (.completed n)))
    (hasked : Asked options userId log) (hlisted : log.ListedBy listing)
    (hshows : ∀ event ∈ log, Shows (Targets listing options.pageSize t) t event) :
    (∀ id, id ∈ t.starsOf userId ↔ id ∈ listedIds log.pages) ∧
      ∀ id ∈ listedIds log.pages, (t.repo? id).isSome := by
  cases h with
  | @completed user previous hfound _ hwas hwhole _ hstocked hstarred hdropped =>
    have htarget (id : Int) : id ∈ Targets listing options.pageSize t userId ↔
        id ∈ listedIds log.pages :=
      mem_targets_iff (shows_user hshows hfound) (hasked.gives (hasked.named hfound) hlisted) hwhole
    obtain ⟨hkept, hgained⟩ := hshows _ hwas previous rfl
    refine ⟨fun id => ⟨fun hid => ?_, fun hid => ?_⟩, fun id hid => ?_⟩
    -- a star to anything else was there before, and was deleted
    · by_contra hout
      have hold : id ∈ previous :=
        (hgained id hid).resolve_right fun htargeted => hout ((htarget id).mp htargeted)
      obtain ⟨gone, count, hgone, hmem⟩ := hdropped id hold hout
      exact hout ((htarget id).mp (hshows _ hmem id hgone hid))
    · rcases hstarred id hid with hold | hmem
      · exact hkept id hold ((htarget id).mpr hid)
      · exact hshows _ hmem rfl ((htarget id).mpr hid)
    · exact shows_stocked hshows (hstocked id hid)

theorem Asked.found_eq {found : Option User} (hasked : Asked options userId log)
    (htrace : Trace reliable.conduct t log t')
    (hmem : ⟨.store (.findUser userId), Except.ok found⟩ ∈ log) : found = t.user? userId := by
  obtain ⟨rest, rfl⟩ := hasked.found hmem
  cases htrace with
  | cons hanswered _ => exact Except.ok.inj (reliable_findUser_iff.mp hanswered).1

theorem Ends.completes {user : User} {pages : List (Page StarredRepo)}
    {result : Except Fault Outcome} (h : Ends options userId log result)
    (hasked : Asked options userId log)
    (hfound : ∀ found, ⟨.store (.findUser userId), Except.ok found⟩ ∈ log → found = some user)
    (hpresent : user.isRemoved = false) (hstored : log.Stored) (hlisted : log.ListedBy listing)
    (hsupplied : log.Supplied) (hgives : listing.Gives user.username options.pageSize pages)
    (hwhole : ∃ page ∈ pages, page.isLast = true)
    (haffordable : pages.length ≤ options.pageBudget) :
    result = .ok (.completed (listedIds pages).toFinset.card) ∨
      result = .error .crashed ∧ ¬ log.WithinCalendar options := by
  have hnamed : Named userId user.username log := by
    intro other hother
    rw [Option.some.inj (hfound _ hother)]
  have hrefused := hasked.not_refused hnamed hlisted hgives hwhole
  have hgiven := hasked.gives hnamed hlisted
  cases h with
  | unknown hmem => cases hfound _ hmem
  | removed hmem hremoved =>
    rw [Option.some.inj (hfound _ hmem), hpresent] at hremoved
    cases hremoved
  | exhausted hexhausted => exact absurd hsupplied hexhausted
  | refused h | interrupted h => exact absurd h hrefused
  | completed _ _ _ hwhole' =>
    rw [hgiven.eq_of_whole hgives hwhole' hwhole]
    exact .inl rfl
  | @failed e hblamed =>
    cases e with
    | store e =>
      obtain ⟨call, hmem⟩ := hblamed
      exact absurd hmem (hstored call e)
    | crashed => exact .inr ⟨rfl, hblamed⟩
    | unfinished =>
      have hlong : options.pageBudget < log.pages.length := hblamed
      have hshort := (hgiven.le_whole hgives hwhole).length_le
      omega

end StarSync
end ReleaseTracker
