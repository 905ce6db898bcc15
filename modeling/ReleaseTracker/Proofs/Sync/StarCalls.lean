import ReleaseTracker.Proofs.GitHub.Exchanges
import ReleaseTracker.Proofs.Sync.StarLog
import ReleaseTracker.Proofs.Work.ListingChoice
import ReleaseTracker.Proofs.Work.RemovalMarks

/-! The calls of a synchronisation of stars. Each page but the first is called for by the cursor of
the one before, until a call fails or a page ends the walk, and what the pages hold is taken in its
order (`WalkedOver`). By page number the requests count up from one. -/

namespace ReleaseTracker
open GitHub (ApiCall Page StarredRepo)
open Program StoreRule

/-! What is asked to take an item -/

def Task.Query.takes : Task.Query → Bool
  | .store (.findRepo _) | .store (.upsertRepo _) | .store (.createStar _ _) => true
  | _ => false

def Log.taking (log : Log) : Log := log.filter (·.query.takes)

@[simp] theorem Log.taking_append (first rest : Log) :
    Log.taking (first ++ rest) = first.taking ++ rest.taking := List.filter_append _ _

/-- Neither a page was called for nor anything asked about listed repositories. -/
def Log.Aside (log : Log) : Prop := log.taking = [] ∧ log.listings = []

namespace StarSync

abbrev Answer := Except ApiError (Page StarredRepo)

structure Handles (userId : Int) (item : StarredRepo) (log : Log) : Prop where
  asked : ∃ (known : Except StoreError (Option Repo)) (stored starred : Log),
    log = ⟨.store (.findRepo item.id), known⟩ :: (stored ++ starred) ∧
    (stored = [] ∨ ∃ (now : Instant) (row : Except StoreError Repo),
      stored = [⟨.store (.upsertRepo (item.draft now)), row⟩]) ∧
    (starred = [] ∨ ∃ made : Except StoreError Unit,
      starred = [⟨.store (.createStar userId item.id), made⟩])

inductive Taken (userId : Int) : List StarredRepo → Log → Prop
  | nil : Taken userId [] []
  | cons {item : StarredRepo} {items : List StarredRepo} {log rest : Log}
      (first : Handles userId item log) (taken : Taken userId items rest) :
      Taken userId (item :: items) (log ++ rest)

variable {rule : StoreRule} {options : SyncOptions} {identity : Identity} {user : User}
  {userId : Int} {previous listed : List Int} {t t' : Tables} {log log' : Log}
  {items items' : List StarredRepo}

theorem Taken.append (h : Taken userId items log) (h' : Taken userId items' log') :
    Taken userId (items ++ items') (log ++ log') := by
  induction h with
  | nil => exact h'
  | cons hfirst _ ih =>
    rw [List.cons_append, List.append_assoc]
    exact .cons hfirst ih

theorem Handles.only {item : StarredRepo} (h : Handles userId item log) :
    log.taking = log ∧ log.listings = [] := by
  obtain ⟨known, stored, starred, rfl, hstored, hstarred⟩ := h.asked
  obtain rfl | ⟨now, row, rfl⟩ := hstored <;> obtain rfl | ⟨made, rfl⟩ := hstarred <;>
    exact ⟨rfl, rfl⟩

theorem Taken.only (h : Taken userId items log) : log.taking = log ∧ log.listings = [] := by
  induction h with
  | nil => exact ⟨rfl, rfl⟩
  | cons hfirst _ ih =>
    obtain ⟨htaking, hlistings⟩ := hfirst.only
    obtain ⟨htaking', hlistings'⟩ := ih
    rw [Log.taking_append, Log.listings_append, htaking, htaking', hlistings, hlistings']
    exact ⟨rfl, rfl⟩

theorem refresh_asked {now : Instant} {item : StarredRepo} {result : Except Fault Unit}
    (h : (refresh options now item).Runs rule.conduct t log result t') :
    ∃ (known : Except StoreError (Option Repo)) (stored : Log),
      log = ⟨.store (.findRepo item.id), known⟩ :: stored ∧
      (stored = [] ∨ ∃ row : Except StoreError Repo,
        stored = [⟨.store (.upsertRepo (item.draft now)), row⟩]) := by
  obtain ⟨e, -, -, rfl⟩ | ⟨known, mid, rest, -, hrest, rfl⟩ := Work.runs_store_bind_iff.mp h
  · exact ⟨_, [], rfl, .inl rfl⟩
  refine ⟨.ok known, rest, rfl, ?_⟩
  obtain ⟨hdue, -⟩ | ⟨due, hdue, -⟩ := isDue_cases options now known
  · rw [hdue] at hrest
    exact .inl (runs_stop_iff.mp hrest).1
  rw [hdue, done_bind] at hrest
  cases due with
  | false => exact .inl (runs_done_iff.mp hrest).1
  | true =>
    exact .inr (Work.runs_store_last hrest)

theorem takeItems_taken {now : Instant} {result : Except Fault (List Int)}
    (h : (takeItems options userId previous now listed items).Runs rule.conduct t log result t') :
    ∃ taken, taken <+: items ∧ Taken userId taken log ∧
      ∀ listed', result = .ok listed' → taken = items := by
  induction items generalizing listed t log with
  | nil =>
    obtain ⟨rfl, -⟩ := runs_done_iff.mp h
    exact ⟨[], List.nil_prefix, .nil, fun _ _ => rfl⟩
  | cons item rest ih =>
    have hbegun : [item] <+: item :: rest := ⟨rest, rfl⟩
    obtain ⟨e, hrefresh, rfl⟩ | ⟨_, t₁, log₁, log₂, hrefresh, h₂, rfl⟩ := runs_bind_iff.mp h
    · obtain ⟨known, stored, rfl, hstored⟩ := refresh_asked hrefresh
      have hhandles : Handles userId item (⟨.store (.findRepo item.id), known⟩ :: stored) :=
        ⟨known, stored, [], by rw [List.append_nil], hstored.imp_right fun h => ⟨now, h⟩, .inl rfl⟩
      refine ⟨[item], hbegun, ?_, nofun⟩
      simpa using Taken.cons hhandles .nil
    obtain ⟨known, stored, rfl, hstored⟩ := refresh_asked hrefresh
    have hhandles (starred : Log) (hstarred : starred = [] ∨ ∃ made : Except StoreError Unit,
        starred = [⟨.store (.createStar userId item.id), made⟩]) :
        Handles userId item (⟨.store (.findRepo item.id), known⟩ :: stored ++ starred) :=
      ⟨known, stored, starred, rfl, hstored.imp_right fun h => ⟨now, h⟩, hstarred⟩
    obtain ⟨e, hfollow, rfl⟩ | ⟨noted, t₂, log₃, log₄, hfollow, h₄, rfl⟩ := runs_bind_iff.mp h₂
    · refine ⟨[item], hbegun, ?_, nofun⟩
      simpa using Taken.cons (hhandles log₂ (follow_asked hfollow)) .nil
    · obtain ⟨taken, hprefix, htaken, hall⟩ := ih h₄
      refine ⟨item :: taken, ?_, ?_, fun listed' hresult => ?_⟩
      · exact (List.prefix_cons_inj item).mpr hprefix
      · rw [← List.append_assoc]
        exact .cons (hhandles log₃ (follow_asked hfollow)) htaken
      · rw [hall listed' hresult]

/-! The walk -/

/-- The answers after which no page is called for: a failure, an empty page, and one with none after
it. -/
def EndsWalk : Answer → Prop
  | .error _ => True
  | .ok page => page.items = [] ∨ page.next = none

def itemsOf : Answer → List StarredRepo
  | .ok page => page.items
  | .error _ => []

def cursorOf : Answer → Option String
  | .ok page => page.next
  | .error _ => none

/-- Calls for pages of stars with their answers, each for the page after the one before. -/
def pageCalls (identity : Identity) (username : String) (perPage : Nat) :
    Option String → List Answer → Log
  | _, [] => []
  | cursor, answer :: rest =>
    ⟨.github identity (.starredPage username cursor perPage), answer⟩ ::
      pageCalls identity username perPage (cursorOf answer) rest

theorem length_pageCalls {username : String} {perPage : Nat} {cursor : Option String}
    {answers : List Answer} :
    (pageCalls identity username perPage cursor answers).length = answers.length := by
  induction answers generalizing cursor with
  | nil => rfl
  | cons answer rest ih => exact congrArg (· + 1) ih

/-- A walk from a cursor on. It went on after all answers but the last one, and its items were taken
as far as it got. If it finished, then the last answer ends it and all its items were taken. -/
structure WalkedOver (identity : Identity) (user : User) (perPage : Nat) (cursor : Option String)
    (before : List Answer) (last : Answer) (finished : Prop) (log : Log) : Prop where
  calls : log.listings = pageCalls identity user.username perPage cursor (before ++ [last])
  going : ∀ answer ∈ before, ¬ EndsWalk answer
  taken : ∃ taken, taken <+: (before ++ [last]).flatMap itemsOf ∧
    Taken user.id taken log.taking ∧ (finished → taken = (before ++ [last]).flatMap itemsOf)
  ends : finished → EndsWalk last

theorem endsWalk_ok_iff {page : Page StarredRepo} :
    EndsWalk (.ok page) ↔ page.isLast = true := by
  simp [EndsWalk, Page.isLast]

namespace WalkedOver
variable {perPage : Nat} {cursor : Option String} {before : List Answer} {last : Answer}
  {finished finished' : Prop} {first rest : Log}

theorem imp (h : WalkedOver identity user perPage cursor before last finished log)
    (hfinished : finished' → finished) :
    WalkedOver identity user perPage cursor before last finished' log where
  calls := h.calls
  going := h.going
  taken := by
    obtain ⟨taken, hprefix, htaken, hall⟩ := h.taken
    exact ⟨taken, hprefix, htaken, fun h => hall (hfinished h)⟩
  ends h' := h.ends (hfinished h')

theorem after_last (h : WalkedOver identity user perPage cursor before last finished log)
    (hrest : rest.Aside) :
    WalkedOver identity user perPage cursor before last finished (log ++ rest) where
  calls := by rw [Log.listings_append, hrest.2, List.append_nil, h.calls]
  going := h.going
  taken := by
    rw [Log.taking_append, hrest.1, List.append_nil]
    exact h.taken
  ends := h.ends

theorem before_first (h : WalkedOver identity user perPage cursor before last finished log)
    (hfirst : first.Aside) :
    WalkedOver identity user perPage cursor before last finished (first ++ log) where
  calls := by rw [Log.listings_append, hfirst.2, List.nil_append, h.calls]
  going := h.going
  taken := by
    rw [Log.taking_append, hfirst.1, List.nil_append]
    exact h.taken
  ends := h.ends

theorem single (hnone : rest.listings = [])
    (htaken : ∃ taken, taken <+: itemsOf last ∧ Taken user.id taken rest.taking ∧
      (finished → taken = itemsOf last))
    (hends : finished → EndsWalk last) :
    WalkedOver identity user perPage cursor [] last finished
      (⟨.github identity (.starredPage user.username cursor perPage), last⟩ :: rest) where
  calls := congrArg (List.cons _) hnone
  going := List.forall_mem_nil _
  taken := by
    obtain ⟨taken, hprefix, htaken, hall⟩ := htaken
    rw [List.nil_append, List.flatMap_singleton]
    exact ⟨taken, hprefix, htaken, hall⟩
  ends := hends

theorem more {page : Page StarredRepo} (hgoing : ¬ EndsWalk (.ok page))
    (hnone : first.listings = []) (htaken : Taken user.id page.items first.taking)
    (h : WalkedOver identity user perPage page.next before last finished rest) :
    WalkedOver identity user perPage cursor (.ok page :: before) last finished
      (⟨.github identity (.starredPage user.username cursor perPage), Except.ok page⟩ ::
        (first ++ rest)) where
  calls := by
    refine congrArg (List.cons _) ?_
    show Log.listings (first ++ rest) = _
    rw [Log.listings_append, hnone, List.nil_append, h.calls]
    rfl
  going := List.forall_mem_cons.mpr ⟨hgoing, h.going⟩
  taken := by
    obtain ⟨taken, hprefix, htaken', hall⟩ := h.taken
    refine ⟨page.items ++ taken, ?_, ?_, fun hfinished => ?_⟩
    · exact (List.prefix_append_right_inj page.items).mpr hprefix
    · show Taken user.id _ (Log.taking (first ++ rest))
      rw [Log.taking_append]
      exact htaken.append htaken'
    · rw [hall hfinished]
      rfl
  ends := h.ends

end WalkedOver

theorem walk_over {budget : Nat} {page : Page StarredRepo}
    {result : Except Fault (List Int × Bool)} (cursor : Option String)
    (h : (walk options identity user previous budget listed page).Runs rule.conduct t log result
      t') : ∃ before last, WalkedOver identity user options.pageSize cursor before last
        (∃ ending, result = .ok ending)
        (⟨.github identity (.starredPage user.username cursor options.pageSize), Except.ok page⟩ ::
          log) := by
  induction budget generalizing listed t log page cursor with
  | zero =>
    obtain ⟨rfl, rfl, -⟩ := runs_stop_iff.mp h
    exact ⟨[], .ok page, .single rfl ⟨[], List.nil_prefix, .nil, nofun⟩ nofun⟩
  | succ budget ih =>
    obtain ⟨now, log₁, h₁, rfl⟩ := Work.runs_clock_bind_iff.mp h
    obtain ⟨e, htake, rfl⟩ | ⟨listed₁, t₁, log₂, log₃, htake, h₂, rfl⟩ := runs_bind_iff.mp h₁
    · obtain ⟨taken, hprefix, htaken, -⟩ := takeItems_taken htake
      obtain ⟨htaking, hnone⟩ := htaken.only
      refine ⟨[], .ok page, .single hnone ⟨taken, hprefix, ?_, nofun⟩ nofun⟩
      show Taken user.id taken log₁.taking
      rwa [htaking]
    obtain ⟨taken, -, htaken, hall⟩ := takeItems_taken htake
    obtain rfl : taken = page.items := hall listed₁ rfl
    obtain ⟨htaking, hnone⟩ := htaken.only
    have hread : Taken user.id page.items (Log.taking (⟨.clock, now⟩ :: log₂)) := by
      show Taken user.id page.items (Log.taking log₂)
      rwa [htaking]
    have hnone : Log.listings (⟨.clock, now⟩ :: log₂) = [] := hnone
    split_ifs at h₂ with hlast
    · obtain ⟨rfl, -⟩ := runs_done_iff.mp h₂
      rw [List.append_nil]
      exact ⟨[], .ok page, .single hnone ⟨page.items, List.prefix_rfl, hread, fun _ => rfl⟩
        fun _ => endsWalk_ok_iff.mpr hlast⟩
    have hgoing : ¬ EndsWalk (.ok page) := mt endsWalk_ok_iff.mp hlast
    obtain ⟨answer, rest, hrest, rfl⟩ := Work.runs_github_bind_iff.mp h₂
    rw [← List.cons_append]
    cases answer with
    | error e =>
      obtain ⟨rfl, -⟩ := runs_done_iff.mp hrest
      have hfailed : WalkedOver identity user options.pageSize page.next [] (.error e)
          (∃ ending, result = .ok ending) [⟨.github identity
            (.starredPage user.username page.next options.pageSize), Except.error e⟩] :=
        .single rfl ⟨[], List.nil_prefix, .nil, fun _ => rfl⟩ fun _ => trivial
      exact ⟨[.ok page], .error e, .more hgoing hnone hread hfailed⟩
    | ok next =>
      obtain ⟨before, last, hwalked⟩ := ih page.next hrest
      exact ⟨.ok page :: before, last, .more hgoing hnone hread hwalked⟩

theorem settle_aside {result : Except Fault Outcome}
    (h : (settle userId previous listed).Runs rule.conduct t log result t') : log.Aside := by
  obtain rfl | ⟨gone, answer, rfl⟩ := settle_asked h <;> exact ⟨rfl, rfl⟩

theorem refused_aside {e : ApiError} {result : Except Fault Outcome}
    (h : (refused user e).Runs rule.conduct t log result t') : log.Aside := by
  obtain rfl | ⟨now, answer, rfl⟩ := refused_asked h <;> exact ⟨rfl, rfl⟩

theorem walkAndSettle_over {page : Page StarredRepo} {result : Except Fault Outcome}
    (cursor : Option String)
    (h : (walkAndSettle options identity user previous page).Runs rule.conduct t log result t') :
    ∃ before last, WalkedOver identity user options.pageSize cursor before last
      (∃ outcome, result = .ok outcome)
      (⟨.github identity (.starredPage user.username cursor options.pageSize), Except.ok page⟩ ::
        log) := by
  obtain ⟨e, hwalk, rfl⟩ | ⟨⟨listed, whole⟩, t₁, log₁, log₂, hwalk, h₂, rfl⟩ := runs_bind_iff.mp h
  · obtain ⟨before, last, hwalked⟩ := walk_over cursor hwalk
    exact ⟨before, last, hwalked.imp nofun⟩
  · obtain ⟨before, last, hwalked⟩ := walk_over cursor hwalk
    have haside : Log.Aside log₂ := by
      dsimp only at h₂
      split_ifs at h₂
      · exact settle_aside h₂
      · obtain ⟨rfl, -⟩ := runs_done_iff.mp h₂
        exact ⟨rfl, rfl⟩
    exact ⟨before, last, (hwalked.after_last haside).imp fun _ => ⟨_, rfl⟩⟩

theorem reconcile_over {result : Except Fault Outcome}
    (h : (reconcile options identity user).Runs rule.conduct t log result t') :
    log.Aside ∨ ∃ before last, WalkedOver identity user options.pageSize none before last
      (∃ outcome, result = .ok outcome) log := by
  obtain ⟨e, -, -, rfl⟩ | ⟨previous, mid, log₁, -, h₁, rfl⟩ := Work.runs_store_bind_iff.mp h
  · exact .inl ⟨rfl, rfl⟩
  have hstars : Log.Aside [⟨.store (.findStars user.id), Except.ok previous⟩] := ⟨rfl, rfl⟩
  obtain ⟨answer, rest, hrest, rfl⟩ := Work.runs_github_bind_iff.mp h₁
  cases answer with
  | error e =>
    obtain ⟨htaking, hnone⟩ := refused_aside hrest
    have hfailed : WalkedOver identity user options.pageSize none [] (.error e)
        (∃ outcome, result = .ok outcome) (⟨.github identity
          (.starredPage user.username none options.pageSize), Except.error e⟩ :: rest) :=
      .single hnone ⟨[], List.nil_prefix, htaking ▸ .nil, fun _ => rfl⟩ fun _ => trivial
    exact .inr ⟨[], .error e, hfailed.before_first hstars⟩
  | ok page =>
    obtain ⟨before, last, hwalked⟩ := walkAndSettle_over none hrest
    exact .inr ⟨before, last, hwalked.before_first hstars⟩

theorem sync_of_syncStars {result : Except Fault Outcome}
    (h : (syncStars options identity userId).Runs fallible.conduct t log result t') :
    (Engine.sync ⟨⟨none, 1, 1⟩, options⟩ identity (.stars userId)).Runs fallible.conduct t log
      result t' := h

theorem syncStars_over {result : Except Fault Outcome}
    (h : (syncStars options identity userId).Runs fallible.conduct t log result t') :
    log.Aside ∨ ∃ user before last, t.user? userId = some user ∧
      WalkedOver identity user options.pageSize none before last
        (∃ outcome, result = .ok outcome) log := by
  obtain ⟨e, rfl⟩ | ⟨-, rfl⟩ | ⟨answer, -, rfl⟩ | ⟨calls, rest, hpresent, -, hrest, rfl⟩ :=
    Engine.sync_runs (sync_of_syncStars h)
  · exact .inl ⟨rfl, rfl⟩
  · exact .inl ⟨rfl, rfl⟩
  · exact .inl ⟨rfl, rfl⟩
  cases hrow : t.user? userId with
  | none =>
    have hrow : (WorkItem.stars userId).rowIn t = none := hrow
    rw [hrow] at hpresent
    cases hpresent
  | some user =>
    have hrow : (WorkItem.stars userId).rowIn t = some user := hrow
    rw [hrow] at hrest ⊢
    have hfront : Log.Aside [⟨.store (.findUser userId), Except.ok (some user)⟩,
        ⟨.github identity .remainingCalls, Except.ok calls⟩] := ⟨rfl, rfl⟩
    obtain ⟨htaking, hnone⟩ | ⟨before, last, hwalked⟩ := reconcile_over hrest
    · exact .inl ⟨htaking, hnone⟩
    · exact .inr ⟨user, before, last, rfl, hwalked.before_first hfront⟩

/-! Walks by page number -/

section ByNumber
open GitHub (Exchange requestOf replyOf Rest.starredRequest Rest.hearStars Rest.pageOf
  Rest.pageNumber)

variable {username : String} {perPage budget page : Nat} {cursor : Option String}
  {before : List Answer} {last : Answer} {wire : List (Answered Exchange)}

theorem pageNumber_cursorOf {told : Except ApiError (List StarredRepo)}
    (hgoing : ¬ EndsWalk (told.map (Rest.pageOf page))) (hfew : page + 1 < Word.size32) :
    Rest.pageNumber (cursorOf (told.map (Rest.pageOf page))) = page + 1 := by
  cases told with
  | error e => exact absurd trivial hgoing
  | ok items =>
    show Rest.pageNumber (some (toString (Word.next32 page))) = page + 1
    rw [Word.next32_eq hfew]
    exact GitHub.Rest.pageNumber_toString hfew

theorem pageCalls_over_rest (hgoing : ∀ answer ∈ before, ¬ EndsWalk answer)
    (hcursor : Rest.pageNumber cursor = page) (hfew : page + before.length < Word.size32)
    (h : (pageCalls identity username perPage cursor (before ++ [last])).Over .rest budget wire) :
    wire.length = before.length + 1 ∧ ∀ k exchange, wire[k]? = some exchange →
      requestOf exchange = Rest.starredRequest username (page + k) perPage ∧
      (before ++ [last])[k]? = some ((Rest.hearStars username (page + k) perPage
        (replyOf exchange)).map (Rest.pageOf (page + k))) := by
  subst hcursor
  induction before generalizing cursor wire with
  | nil =>
    obtain ⟨exchanges, rest, hcall, hrest, rfl⟩ := Log.over_cons_iff.mp h
    obtain ⟨reply, rfl, rfl⟩ := GitHub.ApiCall.over_restPage_iff.mp hcall
    obtain rfl := Log.over_nil_iff.mp hrest
    refine ⟨rfl, fun k event hevent => ?_⟩
    cases k with
    | zero =>
      obtain rfl := Option.some.inj hevent
      exact ⟨rfl, rfl⟩
    | succ k => cases hevent
  | cons answer before ih =>
    obtain ⟨hanswer, hbefore⟩ := List.forall_mem_cons.mp hgoing
    obtain ⟨exchanges, rest, hcall, hrest, rfl⟩ := Log.over_cons_iff.mp h
    obtain ⟨reply, rfl, rfl⟩ := GitHub.ApiCall.over_restPage_iff.mp hcall
    rw [List.length_cons] at hfew
    have hnumber := pageNumber_cursorOf hanswer (by omega)
    obtain ⟨hlength, hlater⟩ := ih hbefore hrest (by rw [hnumber]; omega)
    refine ⟨congrArg (· + 1) hlength, fun k event hevent => ?_⟩
    cases k with
    | zero =>
      obtain rfl := Option.some.inj hevent
      exact ⟨rfl, rfl⟩
    | succ k =>
      obtain ⟨hquery, htold⟩ := hlater k event hevent
      rw [hnumber, Nat.add_right_comm] at hquery htold
      exact ⟨hquery, htold⟩

theorem length_eq_of_tellsPages {contents : List (List StarredRepo)}
    (hgoing : ∀ answer ∈ before, ¬ EndsWalk answer) (hends : EndsWalk last)
    (hlength : wire.length = before.length + 1)
    (htold : ∀ k exchange, wire[k]? = some exchange → (before ++ [last])[k]? = some
      ((Rest.hearStars username (k + 1) perPage (replyOf exchange)).map (Rest.pageOf (k + 1))))
    (hcontents : [] ∉ contents) (htells : GitHub.Rest.TellsPages username perPage contents wire) :
    wire.length = contents.length + 1 := by
  have hanswer (k : Nat) (items : List StarredRepo) (hk : k < wire.length)
      (hitems : (contents ++ [[]])[k]? = some items) :
      (before ++ [last])[k]? = some (.ok (Rest.pageOf (k + 1) items)) := by
    have hevent : wire[k]? = some wire[k] := List.getElem?_eq_getElem hk
    rw [htold k _ hevent, htells k items _ hitems hevent]
    rfl
  rcases Nat.lt_trichotomy before.length contents.length with hless | hsame | hmore
  · -- the last answer is a page that is not empty, and there is always a page after it
    have hitems : (contents ++ [[]])[before.length]? = some contents[before.length] := by
      rw [List.getElem?_append_left hless, List.getElem?_eq_getElem hless]
    have hlast := hanswer before.length _ (by omega) hitems
    rw [List.getElem?_concat_length] at hlast
    obtain rfl := Option.some.inj hlast
    obtain hnone | hnowhere := hends
    · have hempty : contents[before.length] = [] := hnone
      exact absurd (hempty ▸ List.getElem_mem hless) hcontents
    · cases hnowhere
  · rw [hlength, hsame]
  · -- the empty page was not the last one
    have hempty := hanswer contents.length [] (by omega) List.getElem?_concat_length
    rw [List.getElem?_append_left hmore] at hempty
    exact absurd (.inl rfl) (hgoing _ (List.mem_of_getElem? hempty))

end ByNumber

theorem listings_ne_nil {result : Except Fault Outcome}
    (hrun : (syncStars options identity userId).Runs fallible.conduct t log result t')
    (hstored : log.Stored)
    (hpursued : (WorkItem.stars userId).Pursued identity (t.user? userId) log) :
    log.listings ≠ [] := by
  have hasked := (Engine.sync_judged (sync_of_syncStars hrun)).asked hstored hpursued
  intro hnone
  rw [hnone] at hasked
  cases hrow : t.user? userId with
  | none =>
    rw [show (WorkItem.stars userId).rowIn t = none from hrow] at hasked
    exact hasked
  | some user =>
    rw [show (WorkItem.stars userId).rowIn t = some user from hrow] at hasked
    obtain ⟨answer, hfirst⟩ := hasked
    cases hfirst

end StarSync

open StarSync
open GitHub (Exchange)

variable {σ : Type}

namespace StarSync.Sample

def exchange (number : Nat) : Answered Exchange :=
  ⟨GitHub.Rest.starredRequest "ann" number 2,
    Listings.Sample.rest (GitHub.Rest.starredRequest "ann" number 2)⟩

def numbered : Log := (Engine.Sample.world (Engine.Sample.told Listings.Sample.rest)).transcript
  (syncStars Listings.Sample.options .app 1) tables

def wire : List (Answered Exchange) := [exchange 1, exchange 2, exchange 3]

theorem numbered_over : numbered.listings.Over .rest 1 wire := by
  have hlistings : numbered.listings = pageCalls .app "ann" 2 none
      [.ok (GitHub.Rest.pageOf 1 (Listings.Sample.stars.take 2)),
        .ok (GitHub.Rest.pageOf 2 (Listings.Sample.stars.drop 2)),
        .ok (GitHub.Rest.pageOf 3 [])] := rfl
  have hover {number : Nat} {cursor : Option String} {items : List StarredRepo}
      (hnumber : GitHub.Rest.pageNumber cursor = number)
      (htold : GitHub.Rest.hearStars "ann" number 2 (GitHub.replyOf (exchange number)) =
        .ok items) : (ApiCall.starredPage "ann" cursor 2).Over .rest 1 [exchange number]
          (.ok (GitHub.Rest.pageOf number items)) := by
    subst hnumber
    exact GitHub.ApiCall.over_restPage_iff.mpr ⟨_, rfl, (congrArg (Except.map _) htold).symm⟩
  rw [hlistings]
  exact .cons (hover rfl rfl) (.cons (hover rfl rfl) (.cons (hover rfl rfl) .nil))

theorem wire_tellsPages : GitHub.Rest.TellsPages "ann" 2
    [Listings.Sample.stars.take 2, Listings.Sample.stars.drop 2] wire := by
  intro k items event hitems hevent
  match k with
  | 0 | 1 | 2 =>
    cases hitems
    cases hevent
    rfl
  | k + 3 => cases hevent

end StarSync.Sample

end ReleaseTracker
