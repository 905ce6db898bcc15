import ReleaseTracker.Proofs.Sync.StarCalls

/-! The deletion of stars over a listing by query. It waits for a page that ends the walk, but such
a page need not be the last one of the listing: an empty page ends the walk as well, whatever it
says of the pages after it. -/

namespace ReleaseTracker
open GitHub (Exchange Page Reply StarredRepo)
open GitHub.GraphQl (PageInfo Report hearStars)
open Program StoreRule

/-! Pages of stars by query -/

namespace GitHub.GraphQl

def TellsMore (username : String) (reply : Reply) : Prop :=
  ∃ report cursor, hearStars username reply = .ok report ∧
    report.info = some ⟨true, some cursor⟩ ∧ report.items ≠ []

/-- The reply is a page of the user's stars that is said to be the last, or is empty, or does not
say where the next one starts. -/
def TellsEnd (username : String) (reply : Reply) : Prop :=
  ∃ report info, hearStars username reply = .ok report ∧ report.info = some info ∧
    (info.hasNext = false ∨ report.items = [] ∨ info.cursor = none)

def Lists (username : String) (repoId : Int) (reply : Reply) : Prop :=
  ∃ report, hearStars username reply = .ok report ∧ repoId ∈ report.items.map (·.id)

theorem starReport?_info {v : Json} {report : Report StarredRepo}
    (h : starReport? v = some report) : ∃ info, report.info = some info := by
  obtain ⟨columns, -, h⟩ := Option.bind_eq_some_iff.mp h
  split at h
  · obtain ⟨info, -, h⟩ := Option.bind_eq_some_iff.mp h
    obtain ⟨items, -, h⟩ := Option.bind_eq_some_iff.mp h
    obtain rfl := Option.some.inj h
    exact ⟨info, rfl⟩
  · cases h

theorem hearStars_info {username : String} {reply : Reply} {report : Report StarredRepo}
    (h : hearStars username reply = .ok report) : ∃ info, report.info = some info := by
  obtain ⟨status, body, v, -, -, -, -, hgrants⟩ := hear_ok_iff.mp h
  obtain ⟨data, found, listed, -, -, -, hread⟩ := hgrants.given
  exact starReport?_info hread

end GitHub.GraphQl

namespace StarSync
open GitHub (replyOf)
open GitHub.GraphQl (TellsMore TellsEnd Lists)

variable {identity : Identity} {username : String} {perPage budget : Nat} {cursor : Option String}
  {answers : List Answer} {wire : List (Answered Exchange)} {reply : Reply} {log : Log}

def toldBy (username : String) (reply : Reply) : Answer :=
  (hearStars username reply).map Report.page

theorem pageCalls_over_query
    (h : (pageCalls identity username perPage cursor answers).Over .graphql budget wire) :
    answers = wire.map fun exchange => toldBy username (replyOf exchange) := by
  induction answers generalizing cursor wire with
  | nil =>
    obtain rfl := Log.over_nil_iff.mp h
    rfl
  | cons answer rest ih =>
    obtain ⟨exchanges, later, hcall, hlater, rfl⟩ := Log.over_cons_iff.mp h
    obtain ⟨reply, rfl, rfl⟩ := GitHub.ApiCall.over_queryPage_iff.mp hcall
    exact congrArg (List.cons _) (ih hlater)

theorem tellsMore_of_going (h : ¬ EndsWalk (toldBy username reply)) :
    TellsMore username reply := by
  unfold toldBy at h
  cases hheard : hearStars username reply with
  | error e =>
    rw [hheard] at h
    exact absurd trivial h
  | ok report =>
    rw [hheard] at h
    obtain ⟨info, hinfo⟩ := GitHub.GraphQl.hearStars_info hheard
    obtain ⟨hitems, hnext⟩ : report.items ≠ [] ∧ report.next ≠ none := not_or.mp h
    rw [Report.next, hinfo, Option.bind_some] at hnext
    obtain ⟨hasNext, cursor⟩ := info
    match hasNext, cursor with
    | true, some cursor => exact ⟨report, cursor, hheard, hinfo, hitems⟩
    | true, none | false, _ => exact absurd rfl hnext

theorem tellsEnd_of_ends {page : Page StarredRepo} (htold : toldBy username reply = .ok page)
    (hends : page.isLast = true) : TellsEnd username reply := by
  unfold toldBy at htold
  cases hheard : hearStars username reply with
  | error e =>
    rw [hheard] at htold
    cases htold
  | ok report =>
    rw [hheard] at htold
    obtain rfl := Except.ok.inj htold
    obtain ⟨info, hinfo⟩ := GitHub.GraphQl.hearStars_info hheard
    refine ⟨report, info, hheard, hinfo, ?_⟩
    obtain hitems | hnext := endsWalk_ok_iff.mpr hends
    · exact .inr (.inl hitems)
    · have hnext : report.next = none := hnext
      rw [Report.next, hinfo, Option.bind_some, PageInfo.next] at hnext
      split_ifs at hnext with hmore
      · exact .inr (.inr hnext)
      · exact .inl (Bool.eq_false_iff.mpr hmore)

/-! Pages of a log -/

theorem pages_listings : log.listings.pages = log.pages := by
  rw [Log.pages, Log.pages, Log.listings, List.filterMap_filter]
  refine List.filterMap_congr fun event _ => ?_
  by_cases hasks : event.query.asksListing = true
  · rw [if_pos hasks]
  · rw [if_neg hasks]
    cases hpage : pageOf? event with
    | none => rfl
    | some page =>
      obtain ⟨identity, username, cursor, perPage, rfl⟩ := pageOf?_eq_some hpage
      exact absurd rfl hasks

theorem mem_pages_pageCalls {page : Page StarredRepo} :
    page ∈ (pageCalls identity username perPage cursor answers).pages ↔ .ok page ∈ answers := by
  induction answers generalizing cursor with
  | nil => simp [pageCalls]
  | cons answer rest ih =>
    cases answer with
    | error e =>
      rw [pageCalls, Log.pages_failed, ih, List.mem_cons]
      simp
    | ok first =>
      rw [pageCalls, Log.pages_received, List.mem_cons, ih, List.mem_cons]
      simp

variable {options : SyncOptions} {userId owner : Int} {gone : List Int}
  {answer : Except StoreError Nat} {before : List Answer} {last : Answer} {earlier later : Log}

theorem pages_after_deletion (hasked : Asked options userId
      (earlier ++ ⟨.store (.deleteStars gone owner), answer⟩ :: later))
    (hwhole : ∃ page ∈ earlier.pages, page.isLast = true) : later.pages = [] := by
  cases hlater : later.pages with
  | nil => rfl
  | cons next pages =>
    have hsplit : later.pages = [] ++ next :: pages := hlater
    obtain ⟨first, identity, username, cursor, perPage, rest, rfl, -⟩ := of_pages_eq hsplit
    have hasks := hasked (earlier ++ ⟨.store (.deleteStars gone owner), answer⟩ :: first) _ rest
      (by rw [List.append_assoc, List.cons_append])
    obtain ⟨page, hpage, hlast⟩ := hwhole
    have hcame : page ∈
        Log.pages (earlier ++ ⟨.store (.deleteStars gone owner), answer⟩ :: first) := by
      rw [Log.pages_append]
      exact List.mem_append_left _ hpage
    generalize earlier ++ ⟨.store (.deleteStars gone owner), answer⟩ :: first = front at hasks hcame
    cases hasks with
    | page _ _ hgoing =>
      rw [hgoing page hcame] at hlast
      cases hlast

theorem deletion_after_end (hasked : Asked options userId log)
    (hdelete : ⟨.store (.deleteStars gone owner), answer⟩ ∈ log) :
    (∃ page ∈ log.pages, page.isLast = true) ∧ ∀ id ∈ gone, id ∉ listedIds log.pages := by
  obtain ⟨earlier, later, rfl⟩ := List.append_of_mem hdelete
  have hasks := hasked earlier _ later rfl
  cases hasks with
  | settle _ _ hwhole _ hgone =>
    have hpages : Log.pages (earlier ++ ⟨.store (.deleteStars gone userId), answer⟩ :: later) =
        Log.pages earlier := by
      rw [Log.pages_append]
      show Log.pages earlier ++ Log.pages later = Log.pages earlier
      rw [pages_after_deletion hasked hwhole, List.append_nil]
    rw [hpages]
    exact ⟨hwhole, fun id hid => ((hgone id).mp hid).2⟩

end StarSync

open StarSync
open GitHub (replyOf)
open GitHub.GraphQl (TellsMore TellsEnd Lists)

variable {σ : Type}

/-- By query, stars are deleted only after a page that is said to be the last, or is empty, or does
not say where the next one starts. The pages before it list stars and say that there are more. No
star is deleted that one of these pages lists. -/
theorem stars_deleted_after_end (w : Surroundings fallible σ) (options : SyncOptions)
    (identity : Identity) (userId : Int) (s : σ) {budget : Nat} {wire : List (Answered Exchange)}
    {gone : List Int} {owner : Int} {answer : Except StoreError Nat}
    (hwire : (w.transcript (syncStars options identity userId) s).listings.Over .graphql budget
      wire)
    (hdelete : ⟨.store (.deleteStars gone owner), answer⟩ ∈
      w.transcript (syncStars options identity userId) s) :
    ∃ user leading final, (w.tables s).user? userId = some user ∧ wire = leading ++ [final] ∧
      (∀ exchange ∈ leading, TellsMore user.username (replyOf exchange)) ∧
      TellsEnd user.username (replyOf final) ∧
      ∀ repoId ∈ gone, ∀ exchange ∈ wire, ¬ Lists user.username repoId (replyOf exchange) := by
  have hrun := w.runs (syncStars options identity userId) s
  obtain ⟨-, hasked⟩ := (syncStars_asks options identity userId).runs hrun
    fun _ _ _ _ => proper_of_fallible
  change Asked options userId _ at hasked
  generalize w.transcript (syncStars options identity userId) s = log at *
  obtain ⟨⟨page, hpage, hlast⟩, hgone⟩ := deletion_after_end hasked hdelete
  rw [← pages_listings] at hpage hgone
  obtain ⟨-, hnone⟩ | ⟨user, before, last, hfound, hwalked⟩ := syncStars_over hrun
  · rw [hnone] at hpage
    cases hpage
  rw [hwalked.calls] at hpage hgone hwire
  -- of all answers only the last one ends the walk, so it is the page
  have hend : last = .ok page := by
    rcases List.mem_append.mp (mem_pages_pageCalls.mp hpage) with hbefore | hend
    · exact absurd (endsWalk_ok_iff.mpr hlast) (hwalked.going _ hbefore)
    · exact (List.mem_singleton.mp hend).symm
  subst hend
  have htold := pageCalls_over_query hwire
  obtain ⟨leading, rest, rfl, hleading, hrest⟩ := List.append_eq_map_iff.mp htold
  obtain ⟨final, rfl, hfinal⟩ := List.map_eq_singleton_iff.mp hrest
  refine ⟨user, leading, final, hfound, rfl, fun exchange hexchange => ?_,
    tellsEnd_of_ends hfinal hlast, ?_⟩
  · refine tellsMore_of_going (hwalked.going _ ?_)
    rw [← hleading]
    exact List.mem_map_of_mem hexchange
  · rintro repoId hid exchange hexchange ⟨report, hheard, hlisted⟩
    have hcame : .ok report.page ∈ before ++ [.ok page] := by
      rw [htold]
      exact List.mem_map.mpr ⟨exchange, hexchange, congrArg (Except.map Report.page) hheard⟩
    refine hgone repoId hid (List.mem_flatMap.mpr ⟨report.page, ?_, hlisted⟩)
    exact mem_pages_pageCalls.mpr hcame

namespace StarSync.Sample

def inTwo (first second : Json) : GitHub.Server
  | ⟨.post, "/graphql", some (.obj [_, (_, values)])⟩ =>
    Listings.Sample.response "user" "starredRepositories"
      (if (values.get? "after").any (·.isNull) then first else second)
  | _ => .failed ""

def queried (server : GitHub.Server) : GitHub.Facts
  | .remainingCalls => .ok 9
  | call =>
    match server.call .graphql 1 call with
    | .ok answer => answer
    | .error _ => .error (.transport "")

def queryWorld (server : GitHub.Server) : Surroundings fallible Tables :=
  Engine.Sample.world (queried server)

def asked (server : GitHub.Server) (cursor : Option String) : Answered Exchange :=
  ⟨GitHub.GraphQl.starredRequest "ann" cursor 100,
    server (GitHub.GraphQl.starredRequest "ann" cursor 100)⟩

theorem asked_over {server : GitHub.Server} {cursor : Option String} {page : Page StarredRepo}
    (h : toldBy "ann" (replyOf (asked server cursor)) = .ok page) :
    (GitHub.ApiCall.starredPage "ann" cursor 100).Over .graphql 1 [asked server cursor]
      (.ok page) :=
  GitHub.ApiCall.over_queryPage_iff.mpr ⟨_, rfl, h.symm⟩

def closing : GitHub.Server :=
  inTwo (Listings.Sample.page (some "c1") [Listings.Sample.graphqlRepo (item 1)])
    (Listings.Sample.page (some "c2") [])

def openEnded : GitHub.Server :=
  inTwo (Listings.Sample.page (some "c1") [])
    (Listings.Sample.page none [Listings.Sample.graphqlRepo (item 1)])

end StarSync.Sample

open StarSync.Sample

theorem stars_deleted_after_end_second :
    let log := (queryWorld closing).transcript (syncStars (.default 2) .app 1) tables
    let wire := [asked closing none, asked closing (some "c1")]
    log.listings.Over .graphql 1 wire ∧ ⟨.store (.deleteStars [3] 1), Except.ok 1⟩ ∈ log ∧
      ∃ leading final, wire = leading ++ [final] ∧
        (∀ exchange ∈ leading, TellsMore "ann" (replyOf exchange)) ∧
        TellsEnd "ann" (replyOf final) ∧
        ∀ repoId ∈ [(3 : Int)], ∀ exchange ∈ wire, ¬ Lists "ann" repoId (replyOf exchange) := by
  intro log wire
  have hlistings : log.listings =
      pageCalls .app "ann" 100 none [.ok ⟨[item 1], some "c1"⟩, .ok ⟨[], some "c2"⟩] := rfl
  have hover : log.listings.Over .graphql 1 wire := by
    rw [hlistings]
    exact .cons (asked_over rfl) (.cons (asked_over rfl) .nil)
  have hlast : log.getLast? = some ⟨.store (.deleteStars [3] 1), Except.ok 1⟩ := rfl
  have hdelete := List.mem_of_getLast? hlast
  obtain ⟨found, leading, final, hfound, hrest⟩ :=
    stars_deleted_after_end (queryWorld closing) (.default 2) .app 1 tables hover hdelete
  obtain rfl : found = user 1 "ann" := (Option.some.inj hfound).symm
  exact ⟨hover, hdelete, leading, final, hrest⟩

/-- An empty page may be said not to be the last. The stars are deleted then without a look at the
pages after it, on which they are listed. -/
theorem stars_deleted_before_end :
    let log := (queryWorld openEnded).transcript (syncStars (.default 2) .app 1) tables
    log.listings.Over .graphql 1 [asked openEnded none] ∧
      hearStars "ann" (replyOf (asked openEnded none)) = .ok ⟨some ⟨true, some "c1"⟩, []⟩ ∧
      Lists "ann" 1 (replyOf (asked openEnded (some "c1"))) ∧
      ⟨.store (.deleteStars [1, 3] 1), Except.ok 2⟩ ∈ log := by
  intro log
  have hlistings : log.listings = pageCalls .app "ann" 100 none [.ok ⟨[], some "c1"⟩] := rfl
  have hover : log.listings.Over .graphql 1 [asked openEnded none] := by
    rw [hlistings]
    exact .cons (asked_over rfl) .nil
  have hlisted : Lists "ann" 1 (replyOf (asked openEnded (some "c1"))) :=
    ⟨⟨some ⟨false, none⟩, [item 1]⟩, rfl, List.mem_singleton.mpr rfl⟩
  have hlast : log.getLast? = some ⟨.store (.deleteStars [1, 3] 1), Except.ok 2⟩ := rfl
  exact ⟨hover, rfl, hlisted, List.mem_of_getLast? hlast⟩

end ReleaseTracker
