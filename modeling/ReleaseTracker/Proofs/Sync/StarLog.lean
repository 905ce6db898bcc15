import Mathlib.Data.Finset.Card
import ReleaseTracker.Proofs.Work.Contract

/-! The log of a synchronisation of stars. Each question is one that the answers before it lead to
(`StarSync.Asks`), and the whole log shows why the run ended as it did (`StarSync.Ends`). Over one
listing two walks have the same pages as far as both of them go. -/

namespace ReleaseTracker
open GitHub (ApiCall Page StarredRepo)
open Program

/-! Listings -/

abbrev GitHub.StarListing := List (Page StarredRepo) → (username : String) →
  (cursor : Option String) → (perPage : Nat) → Except ApiError (Page StarredRepo)

def cursorAfter (pages : List (Page StarredRepo)) : Option String :=
  pages.getLast?.bind (·.next)

namespace GitHub.StarListing
variable {listing : StarListing} {username : String} {perPage : Nat}
  {pages pages' : List (Page StarredRepo)}

def Gives (listing : StarListing) (username : String) (perPage : Nat)
    (pages : List (Page StarredRepo)) : Prop :=
  ∀ before page after, pages = before ++ page :: after →
    (∀ p ∈ before, p.isLast = false) ∧
      listing before username (cursorAfter before) perPage = .ok page

theorem Gives.of_append {more : List (Page StarredRepo)}
    (h : listing.Gives username perPage (pages ++ more)) :
    listing.Gives username perPage pages := by
  rintro before page after rfl
  exact h before page (after ++ more) (by simp)

theorem Gives.comparable (h : listing.Gives username perPage pages)
    (h' : listing.Gives username perPage pages') : pages <+: pages' ∨ pages' <+: pages := by
  induction pages using List.reverseRecOn with
  | nil => exact .inl List.nil_prefix
  | append_singleton pages page ih =>
    obtain ⟨rest, rfl⟩ | hshort := ih h.of_append
    · cases rest with
      | nil => exact .inr (by simp)
      | cons next rest =>
        -- both pages came after the same ones
        have hpage := (h pages page [] rfl).2
        have hnext := (h' pages next rest rfl).2
        obtain rfl := Except.ok.inj (hpage.symm.trans hnext)
        exact .inl ⟨rest, by simp⟩
    · exact .inr (hshort.trans (List.prefix_append pages [page]))

theorem Gives.le_whole (h : listing.Gives username perPage pages)
    (h' : listing.Gives username perPage pages') (hwhole : ∃ p ∈ pages', p.isLast = true) :
    pages <+: pages' := by
  obtain hle | ⟨rest, rfl⟩ := h.comparable h'
  · exact hle
  cases rest with
  | nil => exact ⟨[], by simp⟩
  | cons next rest =>
    obtain ⟨page, hpage, hlast⟩ := hwhole
    rw [(h pages' next rest rfl).1 page hpage] at hlast
    cases hlast

theorem Gives.eq_of_whole (h : listing.Gives username perPage pages)
    (h' : listing.Gives username perPage pages') (hwhole : ∃ p ∈ pages, p.isLast = true)
    (hwhole' : ∃ p ∈ pages', p.isLast = true) : pages = pages' :=
  (h.le_whole h' hwhole').eq_of_length_le (h'.le_whole h hwhole).length_le

theorem Gives.answers (h : listing.Gives username perPage pages)
    (hopen : ∀ p ∈ pages, p.isLast = false) (h' : listing.Gives username perPage pages')
    (hwhole : ∃ p ∈ pages', p.isLast = true) :
    ∃ page, listing pages username (cursorAfter pages) perPage = .ok page := by
  obtain ⟨rest, rfl⟩ := h.le_whole h' hwhole
  cases rest with
  | nil =>
    obtain ⟨page, hpage, hlast⟩ := hwhole
    rw [List.append_nil] at hpage
    rw [hopen page hpage] at hlast
    cases hlast
  | cons next rest => exact ⟨next, (h' pages next rest rfl).2⟩

end GitHub.StarListing

/-! Logs -/

namespace Log
variable {log log' more : Log} {listing : GitHub.StarListing}

def ListedBy (listing : GitHub.StarListing) (log : Log) : Prop :=
  ∀ (before : Log) identity username cursor perPage
    (answer : Except ApiError (Page StarredRepo)) (after : Log),
    log = before ++ ⟨.github identity (.starredPage username cursor perPage), answer⟩ :: after →
      answer = listing before.pages username cursor perPage

theorem ListedBy.of_append (h : ListedBy listing (log ++ more)) : log.ListedBy listing := by
  rintro before identity username cursor perPage answer after rfl
  exact h before identity username cursor perPage answer (after ++ more) (by simp)

theorem ToldBy.listedBy {facts : GitHub.Facts} (h : log.ToldBy facts) :
    log.ListedBy fun _ username cursor perPage => facts (.starredPage username cursor perPage) := by
  rintro before identity username cursor perPage answer after rfl
  exact h identity (.starredPage username cursor perPage) answer (by simp)

/-- Whenever the calls left were asked for, there were some. -/
def Supplied (log : Log) : Prop :=
  ∀ identity (answer : Except ApiError Nat),
    ⟨.github identity .remainingCalls, answer⟩ ∈ log → (Work.quotaOf answer).isUsable = true

def Refused (log : Log) : Prop :=
  ∃ identity username cursor perPage e,
    ⟨.github identity (.starredPage username cursor perPage), Except.error e⟩ ∈ log

theorem Refused.not_unfailing (h : log.Refused) : ¬ log.Unfailing := by
  obtain ⟨identity, username, cursor, perPage, e, hmem⟩ := h
  intro hunfailing
  obtain ⟨page, hpage⟩ := hunfailing identity (.starredPage username cursor perPage) _ hmem
  cases hpage

theorem Refused.mono (h : log.Refused) (hsub : log ⊆ log') : log'.Refused := by
  obtain ⟨identity, username, cursor, perPage, e, hmem⟩ := h
  exact ⟨identity, username, cursor, perPage, e, hsub hmem⟩

def Stocked (log : Log) (id : Int) : Prop :=
  (∃ row, ⟨.store (.findRepo id), Except.ok (some row)⟩ ∈ log) ∨
    ∃ draft row, draft.id = .set id ∧ ⟨.store (.upsertRepo draft), Except.ok row⟩ ∈ log

theorem stocked_append_iff {more : Log} {id : Int} :
    Stocked (log ++ more) id ↔ log.Stocked id ∨ more.Stocked id := by
  simp only [Stocked, List.mem_append, exists_or, and_or_left]
  exact or_or_or_comm

theorem Stocked.mono {id : Int} (h : log.Stocked id) (hsub : log ⊆ log') : log'.Stocked id := by
  obtain ⟨row, hmem⟩ | ⟨draft, row, hdraft, hmem⟩ := h
  · exact .inl ⟨row, hsub hmem⟩
  · exact .inr ⟨draft, row, hdraft, hsub hmem⟩

def reading? : Answered Task → Option Instant
  | ⟨.clock, now⟩ => some now
  | _ => none

def time? (log : Log) : Option Instant := (log.filterMap reading?).getLast?

theorem time?_clock (log : Log) (now : Instant) : time? (log ++ [⟨.clock, now⟩]) = some now := by
  rw [time?, List.filterMap_append]
  exact List.getLast?_concat

def items (log : Log) : List StarredRepo := log.pages.flatMap (·.items)

theorem listedIds_pages (log : Log) : listedIds log.pages = log.items.map (·.id) := by
  rw [items, List.map_flatMap]
  rfl

def Onward (log log' : Log) : Prop :=
  ∃ more : Log, log' = log ++ more ∧ ∀ event ∈ more, ∃ call, event.query = .store call

theorem Onward.refl (log : Log) : log.Onward log := ⟨[], by simp⟩

theorem Onward.snoc (h : log.Onward log') {call : StoreCall}
    (answer : Except StoreError call.Result) : log.Onward (log' ++ [⟨.store call, answer⟩]) := by
  obtain ⟨more, rfl, hmore⟩ := h
  refine ⟨more ++ [⟨.store call, answer⟩], by simp, ?_⟩
  exact List.forall_mem_append.mpr ⟨hmore, by simp⟩

theorem Onward.trans {log'' : Log} (h : log.Onward log') (h' : log'.Onward log'') :
    log.Onward log'' := by
  obtain ⟨more, rfl, hmore⟩ := h
  obtain ⟨more', rfl, hmore'⟩ := h'
  exact ⟨more ++ more', by simp, List.forall_mem_append.mpr ⟨hmore, hmore'⟩⟩

theorem Onward.subset (h : log.Onward log') : log ⊆ log' := by
  obtain ⟨more, rfl, -⟩ := h
  exact List.subset_append_left log more

theorem Onward.filterMap_eq {α : Type} {f : Answered Task → Option α} (h : log.Onward log')
    (hstore : ∀ (call : StoreCall) (answer : Except StoreError call.Result),
      f ⟨.store call, answer⟩ = none) : log'.filterMap f = log.filterMap f := by
  obtain ⟨more, rfl, hmore⟩ := h
  have hnone : more.filterMap f = [] := by
    refine List.filterMap_eq_nil_iff.mpr fun event hevent => ?_
    obtain ⟨call, hcall⟩ := hmore event hevent
    obtain ⟨query, answer⟩ := event
    obtain rfl : query = .store call := hcall
    exact hstore call answer
  rw [List.filterMap_append, hnone, List.append_nil]

theorem Onward.pages_eq (h : log.Onward log') : log'.pages = log.pages :=
  h.filterMap_eq fun _ _ => rfl

theorem Onward.items_eq (h : log.Onward log') : log'.items = log.items := by
  rw [items, items, h.pages_eq]

theorem Onward.time?_eq (h : log.Onward log') : log'.time? = log.time? :=
  congrArg List.getLast? (h.filterMap_eq fun _ _ => rfl)

end Log

/-! Contracts -/

namespace StarSync

inductive Asks (options : SyncOptions) (userId : Int) : Log → Task.Query → Prop
  | user : Asks options userId [] (.store (.findUser userId))
  | calls {log : Log} (identity : Identity) :
      Asks options userId log (.github identity .remainingCalls)
  | stars {log : Log} : Asks options userId log (.store (.findStars userId))
  | page {log : Log} {user : User} (identity : Identity)
      (found : ⟨.store (.findUser userId), Except.ok (some user)⟩ ∈ log)
      (going : ∀ page ∈ log.pages, page.isLast = false) :
      Asks options userId log (.github identity
        (.starredPage user.username (cursorAfter log.pages) options.pageSize))
  | clock {log : Log} : Asks options userId log .clock
  | repo {log : Log} {item : StarredRepo} (listed : item ∈ log.items) :
      Asks options userId log (.store (.findRepo item.id))
  | refresh {log : Log} {item : StarredRepo} {known : Option Repo} {now : Instant}
      (listed : item ∈ log.items) (read : log.time? = some now)
      (due : isDue options now known = .done true) :
      Asks options userId (log ++ [⟨.store (.findRepo item.id), Except.ok known⟩])
        (.store (.upsertRepo (item.draft now)))
  | star {log : Log} {user : User} {previous : List Int} {repoId : Int}
      (found : ⟨.store (.findUser userId), Except.ok (some user)⟩ ∈ log)
      (was : ⟨.store (.findStars userId), Except.ok previous⟩ ∈ log)
      (listed : repoId ∈ listedIds log.pages) (stocked : log.Stocked repoId)
      (new : repoId ∉ previous) : Asks options userId log (.store (.createStar userId repoId))
  | settle {log : Log} {user : User} {previous gone : List Int}
      (found : ⟨.store (.findUser userId), Except.ok (some user)⟩ ∈ log)
      (was : ⟨.store (.findStars userId), Except.ok previous⟩ ∈ log)
      (whole : ∃ page ∈ log.pages, page.isLast = true) (any : gone ≠ [])
      (gone_iff : ∀ id, id ∈ gone ↔ id ∈ previous ∧ id ∉ listedIds log.pages) :
      Asks options userId log (.store (.deleteStars gone userId))
  | mark {log : Log} (now : Instant) (refused : log.Refused) :
      Asks options userId log (.store (.markUserRemoved userId now))

def Asked (options : SyncOptions) (userId : Int) (log : Log) : Prop :=
  ∀ before event after, log = before ++ event :: after → Asks options userId before event.query

/-- What a log shows of a fault. -/
def Blames (options : SyncOptions) (log : Log) : Fault → Prop
  | .store e => ∃ call : StoreCall, ⟨.store call, Except.error e⟩ ∈ log
  | .crashed => ¬ log.WithinCalendar options
  | .unfinished => options.pageBudget < log.pages.length

inductive Ends (options : SyncOptions) (userId : Int) (log : Log) : Except Fault Outcome → Prop
  | unknown (absent : ⟨.store (.findUser userId), Except.ok none⟩ ∈ log) :
      Ends options userId log (.ok (.aborted .userNotFound))
  | removed {user : User} (found : ⟨.store (.findUser userId), Except.ok (some user)⟩ ∈ log)
      (removed : user.isRemoved = true) : Ends options userId log (.ok (.aborted .alreadyRemoved))
  | exhausted (exhausted : ¬ log.Supplied) :
      Ends options userId log (.ok (.aborted .quotaExhausted))
  | refused {reason : AbortReason} (refused : log.Refused) :
      Ends options userId log (.ok (.aborted reason))
  | interrupted {n : Nat} (refused : log.Refused) :
      Ends options userId log (.ok (.partly n .remoteFailure))
  | completed {user : User} {previous : List Int}
      (found : ⟨.store (.findUser userId), Except.ok (some user)⟩ ∈ log)
      (present : user.isRemoved = false)
      (was : ⟨.store (.findStars userId), Except.ok previous⟩ ∈ log)
      (whole : ∃ page ∈ log.pages, page.isLast = true)
      (affordable : log.pages.length ≤ options.pageBudget)
      (stocked : ∀ id ∈ listedIds log.pages, log.Stocked id)
      (starred : ∀ id ∈ listedIds log.pages, id ∈ previous ∨
        ⟨.store (.createStar userId id), Except.ok ()⟩ ∈ log)
      (dropped : ∀ id ∈ previous, id ∉ listedIds log.pages → ∃ gone n,
        id ∈ gone ∧ ⟨.store (.deleteStars gone userId), Except.ok n⟩ ∈ log) :
      Ends options userId log (.ok (.completed (listedIds log.pages).toFinset.card))
  | failed {e : Fault} (blamed : Blames options log e) : Ends options userId log (.error e)

def Reckons {α : Type} (options : SyncOptions) (holds : Log → α → Prop) (log : Log) :
    Except Fault α → Prop
  | .ok a => holds log a
  | .error e => Blames options log e

structure Noted (userId : Int) (previous listed : List Int) (log : Log) : Prop where
  nodup : listed.Nodup
  stocked : ∀ id ∈ listed, log.Stocked id
  starred : ∀ id ∈ listed, id ∈ previous ∨ ⟨.store (.createStar userId id), Except.ok ()⟩ ∈ log

structure Underway (user : User) (previous : List Int) (log : Log) : Prop where
  found : ⟨.store (.findUser user.id), Except.ok (some user)⟩ ∈ log
  present : user.isRemoved = false
  was : ⟨.store (.findStars user.id), Except.ok previous⟩ ∈ log

variable {may : (query : Task.Query) → Task.Answer query → Prop} {options : SyncOptions}
  {identity : Identity} {user : User} {userId : Int} {previous listed : List Int} {log log' : Log}

theorem Noted.nil : Noted userId previous [] log where
  nodup := List.nodup_nil
  stocked := List.forall_mem_nil _
  starred := List.forall_mem_nil _

theorem Noted.mono (h : Noted userId previous listed log) (hsub : log ⊆ log') :
    Noted userId previous listed log' where
  nodup := h.nodup
  stocked id hid := (h.stocked id hid).mono hsub
  starred id hid := (h.starred id hid).imp_right fun hmem => hsub hmem

theorem Noted.note {repoId : Int} (h : Noted userId previous listed log) (hnew : repoId ∉ listed)
    (hstocked : log.Stocked repoId)
    (hstarred : repoId ∈ previous ∨ ⟨.store (.createStar userId repoId), Except.ok ()⟩ ∈ log) :
    Noted userId previous (listed ++ [repoId]) log where
  nodup := by
    rw [← List.concat_eq_append]
    exact h.nodup.concat hnew
  stocked := List.forall_mem_append.mpr ⟨h.stocked, by simpa using hstocked⟩
  starred := List.forall_mem_append.mpr ⟨h.starred, by simpa using hstarred⟩

theorem Underway.mono (h : Underway user previous log) (hsub : log ⊆ log') :
    Underway user previous log' := ⟨hsub h.found, h.present, hsub h.was⟩

theorem blames_store (log : Log) (call : StoreCall) (e : StoreError) :
    Blames options (log ++ [⟨.store call, Except.error e⟩]) (.store e) := ⟨call, by simp⟩

theorem reckons_store {α : Type} {holds : Log → α → Prop} (call : StoreCall) (e : StoreError) :
    Reckons options holds (log ++ [⟨.store call, Except.error e⟩]) (.error (.store e)) := by
  have hblamed : Blames options (log ++ [⟨.store call, Except.error e⟩]) (.store e) :=
    blames_store log call e
  exact hblamed

theorem reckons_bind {α β : Type} {asks : Log → Task.Query → Prop} {p : Work α} {f : α → Work β}
    {holds : Log → α → Prop} {holds' : Log → β → Prop}
    (h : Program.Ensures may asks (Reckons options holds) log p)
    (hnext : ∀ log a, holds log a → Program.Ensures may asks (Reckons options holds') log (f a)) :
    Program.Ensures may asks (Reckons options holds') log (p.bind f) :=
  h.bind hnext fun _ _ h => h

theorem refresh_asks {now : Instant} {item : StarredRepo} (hitem : item ∈ log.items)
    (hread : log.time? = some now) :
    Program.Ensures may (Asks options userId)
      (Reckons options fun log' (_ : Unit) => log.Onward log' ∧ log'.Stocked item.id) log
      (refresh options now item) := by
  refine Work.ensures_store_bind_iff.mpr ⟨.repo hitem, fun e _ => reckons_store _ e,
    fun known _ => ?_⟩
  have honward : log.Onward (log ++ [⟨.store (.findRepo item.id), Except.ok known⟩]) :=
    (Log.Onward.refl log).snoc _
  obtain ⟨hdue, hnone⟩ | ⟨due, hdue, hpresent⟩ := isDue_cases options now known
  · rw [hdue]
    -- the clock was read, and it read what the calendar does not reach back from
    have hmem : (⟨.clock, now⟩ : Answered Task) ∈ log := by
      obtain ⟨event, hevent, hreading⟩ :=
        List.mem_filterMap.mp (List.mem_of_getLast? hread)
      unfold Log.reading? at hreading
      split at hreading
      · cases hreading
        exact hevent
      · cases hreading
    intro hcalendar
    have hsome := hcalendar now (honward.subset hmem)
    rw [hnone] at hsome
    cases hsome
  rw [hdue, done_bind]
  cases due with
  | false =>
    obtain ⟨row, rfl⟩ := Option.isSome_iff_exists.mp (hpresent rfl)
    exact ⟨honward, .inl ⟨row, by simp⟩⟩
  | true =>
    refine Work.ensures_store_bind_iff.mpr ⟨.refresh hitem hread hdue, fun e _ => reckons_store _ e,
      fun row _ => ?_⟩
    exact ⟨honward.snoc _, .inr ⟨item.draft now, row, rfl, by simp⟩⟩

theorem follow_asks {repoId : Int} (hunderway : Underway user previous log)
    (hlisted : repoId ∈ listedIds log.pages) (hstocked : log.Stocked repoId)
    (hnoted : Noted user.id previous listed log) :
    Program.Ensures may (Asks options user.id)
      (Reckons options fun log' listed' => log.Onward log' ∧ Noted user.id previous listed' log' ∧
        ∀ id, id ∈ listed' ↔ id ∈ listed ∨ id = repoId) log
      (follow user.id previous listed repoId) := by
  unfold follow
  simp only [List.contains_iff_mem]
  split_ifs with hin hprevious
  · refine ⟨.refl log, hnoted, fun id => ?_⟩
    constructor
    · exact .inl
    · rintro (hid | rfl)
      · exact hid
      · exact hin
  · exact ⟨.refl log, hnoted.note hin hstocked (.inl hprevious), by simp⟩
  refine Work.ensures_store_bind_iff.mpr ⟨?_, fun e _ => reckons_store _ e, fun _ _ => ?_⟩
  · exact .star hunderway.found hunderway.was hlisted hstocked hprevious
  have honward : log.Onward (log ++ [⟨.store (.createStar user.id repoId), Except.ok ()⟩]) :=
    (Log.Onward.refl log).snoc _
  have hnoted' := (hnoted.mono honward.subset).note hin (hstocked.mono honward.subset)
    (.inr List.mem_concat_self)
  exact ⟨honward, hnoted', by simp⟩

theorem takeItems_asks {now : Instant} {items : List StarredRepo}
    (hunderway : Underway user previous log) (hitems : ∀ item ∈ items, item ∈ log.items)
    (hread : log.time? = some now) (hnoted : Noted user.id previous listed log) :
    Program.Ensures may (Asks options user.id)
      (Reckons options fun log' listed' => log.Onward log' ∧ Noted user.id previous listed' log' ∧
        ∀ id, id ∈ listed' ↔ id ∈ listed ∨ id ∈ items.map (·.id)) log
      (takeItems options user.id previous now listed items) := by
  -- the ids listed so far go from one item to the next, while the pages and the time stay
  induction items generalizing listed log with
  | nil => exact ⟨.refl log, hnoted, by simp⟩
  | cons item rest ih =>
    obtain ⟨hitem, hrest⟩ := List.forall_mem_cons.mp hitems
    refine reckons_bind (refresh_asks hitem hread) fun log₁ _ ⟨honward, hstocked⟩ => ?_
    have hlisted : item.id ∈ listedIds log₁.pages := by
      rw [Log.listedIds_pages, honward.items_eq]
      exact List.mem_map_of_mem hitem
    refine reckons_bind (follow_asks (hunderway.mono honward.subset) hlisted hstocked
      (hnoted.mono honward.subset)) fun log₂ listed₂ ⟨honward', hnoted', hmem⟩ => ?_
    have hbefore : log.Onward log₂ := honward.trans honward'
    have hrest' : ∀ item ∈ rest, item ∈ log₂.items := hbefore.items_eq ▸ hrest
    refine (ih (hunderway.mono hbefore.subset) hrest' (hbefore.time?_eq.trans hread) hnoted').mono
      (fun _ _ h => h) (fun _ _ h => h) fun log₃ result hend => ?_
    cases result with
    | error e => exact hend
    | ok listed₃ =>
      obtain ⟨hafter, hnoted₃, hmem'⟩ := hend
      refine ⟨hbefore.trans hafter, hnoted₃, fun id => ?_⟩
      rw [hmem' id, hmem id, List.map_cons, List.mem_cons, or_assoc]

structure WalkedBy (options : SyncOptions) (user : User) (previous : List Int) (log : Log)
    (listed : List Int) (whole : Bool) : Prop where
  underway : Underway user previous log
  noted : Noted user.id previous listed log
  mem_iff : ∀ id, id ∈ listed ↔ id ∈ listedIds log.pages
  ended : whole = true →
    (∃ page ∈ log.pages, page.isLast = true) ∧ log.pages.length ≤ options.pageBudget
  refused : whole = false → log.Refused

theorem walk_asks {budget : Nat} {page : Page StarredRepo} {pages : List (Page StarredRepo)}
    (hunderway : Underway user previous log) (hpages : log.pages = pages ++ [page])
    (hopen : ∀ p ∈ pages, p.isLast = false) (hbudget : pages.length + budget = options.pageBudget)
    (hnoted : Noted user.id previous listed log) (hmem : ∀ id, id ∈ listed ↔ id ∈ listedIds pages) :
    Program.Ensures may (Asks options user.id)
      (Reckons options fun log' (ending : List Int × Bool) =>
        WalkedBy options user previous log' ending.1 ending.2) log
      (walk options identity user previous budget listed page) := by
  -- the pages before this one and the budget that is left make up the whole budget
  induction budget generalizing listed log page pages with
  | zero =>
    show options.pageBudget < log.pages.length
    rw [hpages, List.length_append]
    simp only [List.length_singleton]
    omega
  | succ budget ih =>
    refine Work.ensures_clock_bind_iff.mpr ⟨.clock, fun now _ => ?_⟩
    let read : Log := log ++ [⟨.clock, now⟩]
    have hsub : log ⊆ read := List.subset_append_left _ _
    have hpages' : read.pages = pages ++ [page] := by
      rw [Log.pages_append, hpages, Log.pages_clock, Log.pages_nil, List.append_nil]
    have hitems : ∀ item ∈ page.items, item ∈ read.items := by
      intro item hitem
      rw [Log.items, hpages']
      exact List.mem_flatMap.mpr ⟨page, by simp, hitem⟩
    refine reckons_bind (takeItems_asks (hunderway.mono hsub) hitems (log.time?_clock now)
      (hnoted.mono hsub)) fun log₁ listed₁ ⟨honward, hnoted₁, hmem₁⟩ => ?_
    have hpages₁ : log₁.pages = pages ++ [page] := honward.pages_eq.trans hpages'
    have hunderway₁ := (hunderway.mono hsub).mono honward.subset
    have hmem₁' : ∀ id, id ∈ listed₁ ↔ id ∈ listedIds (pages ++ [page]) := by
      intro id
      rw [hmem₁ id, hmem id, listedIds_append, List.mem_append]
      simp
    split_ifs with hlast
    · refine ⟨hunderway₁, hnoted₁, hpages₁ ▸ hmem₁', fun _ => ⟨⟨page, ?_, hlast⟩, ?_⟩, by simp⟩
      · simp [hpages₁]
      · rw [hpages₁, List.length_append, List.length_singleton]
        omega
    have hopen₁ : ∀ p ∈ pages ++ [page], p.isLast = false := by
      rw [List.forall_mem_append, List.forall_mem_singleton]
      exact ⟨hopen, Bool.eq_false_iff.mpr hlast⟩
    have hcursor : cursorAfter log₁.pages = page.next := by
      rw [hpages₁, cursorAfter, List.getLast?_concat, Option.bind_some]
    have hasks : Asks options user.id log₁
        (.github identity (.starredPage user.username page.next options.pageSize)) :=
      hcursor ▸ .page identity hunderway₁.found (hpages₁ ▸ hopen₁)
    refine Work.ensures_github_bind_iff.mpr ⟨hasks, fun answer _ => ?_⟩
    have hsub₁ (event : Answered Task) : log₁ ⊆ log₁ ++ [event] := List.subset_append_left _ _
    cases answer with
    | error e =>
      refine ⟨hunderway₁.mono (hsub₁ _), hnoted₁.mono (hsub₁ _), ?_, by simp, fun _ => ?_⟩
      · rw [Log.pages_append, Log.pages_failed, Log.pages_nil, List.append_nil, hpages₁]
        exact hmem₁'
      · exact ⟨identity, user.username, page.next, options.pageSize, e, by simp⟩
    | ok next =>
      refine ih (hunderway₁.mono (hsub₁ _)) ?_ hopen₁ ?_ (hnoted₁.mono (hsub₁ _)) hmem₁'
      · rw [Log.pages_append, Log.pages_received, Log.pages_nil, hpages₁]
      · rw [List.length_append, List.length_singleton]
        omega

theorem settle_asks (hwalked : WalkedBy options user previous log listed true) :
    Program.Ensures may (Asks options user.id) (Ends options user.id) log
      (settle user.id previous listed) := by
  obtain ⟨hunderway, hnoted, hmem, hwhole, -⟩ := hwalked
  obtain ⟨hlast, hbudget⟩ := hwhole rfl
  have hcount : listed.length = (listedIds log.pages).toFinset.card := by
    rw [← List.toFinset_card_of_nodup hnoted.nodup]
    congr 1
    ext id
    rw [List.mem_toFinset, List.mem_toFinset, hmem]
  have hgone (id : Int) : id ∈ previous.filter (!listed.contains ·) ↔
      id ∈ previous ∧ id ∉ listedIds log.pages := by
    simp [hmem]
  have hstocked : ∀ id ∈ listedIds log.pages, log.Stocked id :=
    fun id hid => hnoted.stocked id ((hmem id).mpr hid)
  have hstarred := fun id hid => hnoted.starred id ((hmem id).mpr hid)
  unfold settle
  split
  · rename_i hnone
    rw [hnone] at hgone
    rw [hcount]
    refine .completed hunderway.found hunderway.present hunderway.was hlast hbudget hstocked
      hstarred fun id hid hout => ?_
    exact absurd ((hgone id).mpr ⟨hid, hout⟩) List.not_mem_nil
  · rename_i hsome
    generalize hfiltered : previous.filter (!listed.contains ·) = gone at hsome hgone
    refine Work.ensures_store_bind_iff.mpr ⟨.settle hunderway.found hunderway.was hlast hsome hgone,
      fun e _ => .failed (blames_store _ _ e), fun n _ => ?_⟩
    let settled : Log := log ++ [⟨.store (.deleteStars gone user.id), Except.ok n⟩]
    have honward : log.Onward settled := (Log.Onward.refl log).snoc _
    have hpages : settled.pages = log.pages := honward.pages_eq
    have hdeleted : (⟨.store (.deleteStars gone user.id), Except.ok n⟩ : Answered Task) ∈ settled :=
      List.mem_concat_self
    have hunderway' : Underway user previous settled := hunderway.mono honward.subset
    rw [hcount, ← hpages]
    rw [← hpages] at hlast hbudget hstocked hstarred hgone
    refine .completed hunderway'.found hunderway'.present hunderway'.was hlast hbudget
      (fun id hid => (hstocked id hid).mono honward.subset)
      (fun id hid => (hstarred id hid).imp_right fun hmem => honward.subset hmem)
      fun id hid hout => ⟨gone, n, (hgone id).mpr ⟨hid, hout⟩, hdeleted⟩

theorem refused_asks {e : ApiError} (hrefused : log.Refused) :
    Program.Ensures may (Asks options user.id) (Ends options user.id) log (refused user e) := by
  unfold refused
  split_ifs
  · refine Work.ensures_clock_bind_iff.mpr ⟨.clock, fun now _ => ?_⟩
    have hrefused' : Log.Refused (log ++ [⟨.clock, now⟩]) :=
      hrefused.mono (List.subset_append_left _ _)
    refine Work.ensures_store_bind_iff.mpr ⟨.mark now hrefused', fun e _ => ?_, fun _ _ => ?_⟩
    · exact .failed (blames_store _ _ e)
    · exact .refused (hrefused'.mono (List.subset_append_left _ _))
  · exact .refused hrefused

theorem reconcile_asks
    (hfound : ⟨.store (.findUser user.id), Except.ok (some user)⟩ ∈ log)
    (hpresent : user.isRemoved = false) (hpages : log.pages = []) :
    Program.Ensures may (Asks options user.id) (Ends options user.id) log
      (reconcile options identity user) := by
  refine Work.ensures_store_bind_iff.mpr ⟨.stars, fun e _ => .failed (blames_store _ _ e),
    fun previous _ => ?_⟩
  let begun : Log := log ++ [⟨.store (.findStars user.id), Except.ok previous⟩]
  have hsub : log ⊆ begun := List.subset_append_left _ _
  have hpages' : begun.pages = [] := by
    rw [Log.pages_append, hpages]
    rfl
  have hunderway : Underway user previous begun := ⟨hsub hfound, hpresent, List.mem_concat_self⟩
  have hopen : ∀ page ∈ begun.pages, page.isLast = false := by simp [hpages']
  have hasks : Asks options user.id begun
      (.github identity (.starredPage user.username none options.pageSize)) := by
    have hfirst : Asks options user.id begun (.github identity
        (.starredPage user.username (cursorAfter begun.pages) options.pageSize)) :=
      .page identity hunderway.found hopen
    rwa [hpages'] at hfirst
  refine Work.ensures_github_bind_iff.mpr ⟨hasks, fun answer _ => ?_⟩
  have hsub' (event : Answered Task) : begun ⊆ begun ++ [event] := List.subset_append_left _ _
  cases answer with
  | error e =>
    exact refused_asks ⟨identity, user.username, none, options.pageSize, e, List.mem_concat_self⟩
  | ok page =>
    let received : Log := begun ++
      [⟨.github identity (.starredPage user.username none options.pageSize), Except.ok page⟩]
    have hfirst : received.pages = [] ++ [page] := by
      rw [Log.pages_append, Log.pages_received, Log.pages_nil, hpages']
    have hwalk : Program.Ensures may (Asks options user.id) _ received
        (walk options identity user previous options.pageBudget [] page) :=
      walk_asks (hunderway.mono (hsub' _)) hfirst (List.forall_mem_nil _) (Nat.zero_add _) .nil
        (by simp)
    refine hwalk.bind (fun log₁ ending hwalked => ?_) fun _ e hblamed => .failed hblamed
    obtain ⟨listed, whole⟩ := ending
    cases whole with
    | true => exact settle_asks hwalked
    | false => exact .interrupted (hwalked.refused rfl)

end StarSync

open StarSync

theorem syncStars_asks (options : SyncOptions) (identity : Identity) (userId : Int) :
    Program.Ensures Task.Proper (Asks options userId) (Ends options userId) []
      (syncStars options identity userId) := by
  refine Work.ensures_store_bind_iff.mpr ⟨.user, fun e _ => .failed (blames_store _ _ e),
    fun found hproper => ?_⟩
  cases found with
  | none => exact .unknown List.mem_concat_self
  | some user =>
    obtain rfl : user.id = userId := hproper user rfl
    dsimp only
    split_ifs with hremoved
    · exact .removed List.mem_concat_self hremoved
    refine Work.ensures_probe_bind_iff.mpr ⟨.calls identity, fun answer _ => ?_⟩
    split_ifs with hquota
    · exact reconcile_asks (by simp) (Bool.eq_false_iff.mpr hremoved) rfl
    · exact .exhausted fun hsupplied => hquota (hsupplied identity answer List.mem_concat_self)

/-! What a contract tells of a log over a listing -/

namespace StarSync
variable {options : SyncOptions} {userId : Int} {log more : Log} {listing : GitHub.StarListing}
  {username : String} {pages : List (Page StarredRepo)}

theorem Asked.of_append (h : Asked options userId (log ++ more)) : Asked options userId log := by
  rintro before event after rfl
  exact h before event (after ++ more) (by simp)

theorem asked_nil : Asked options userId [] := by simp [Asked]

theorem Asked.snoc (h : Asked options userId log) {event : Answered Task}
    (hasks : Asks options userId log event.query) : Asked options userId (log ++ [event]) := by
  intro before other after hlog
  obtain ⟨rest, rfl, hrest⟩ | ⟨rest, rfl, hrest⟩ := List.append_eq_append_iff.mp hlog
  · cases rest with
    | nil =>
      obtain ⟨rfl, -⟩ := List.cons.inj hrest
      rwa [List.append_nil]
    | cons first rest => simp at hrest
  · cases rest with
    | nil =>
      obtain ⟨rfl, -⟩ := List.cons.inj hrest
      simpa using hasks
    | cons first rest =>
      obtain ⟨rfl, -⟩ := List.cons.inj hrest
      exact h before _ rest rfl

def Named (userId : Int) (username : String) (log : Log) : Prop :=
  ∀ user : User, ⟨.store (.findUser userId), Except.ok (some user)⟩ ∈ log → user.username = username

theorem Named.mono {log' : Log} (h : Named userId username log) (hsub : log' ⊆ log) :
    Named userId username log' := fun user hmem => h user (hsub hmem)

theorem Asked.found {found : Option User} (h : Asked options userId log)
    (hmem : ⟨.store (.findUser userId), Except.ok found⟩ ∈ log) :
    ∃ rest, log = ⟨.store (.findUser userId), Except.ok found⟩ :: rest := by
  obtain ⟨before, after, rfl⟩ := List.append_of_mem hmem
  cases h before _ after rfl with
  | user => exact ⟨after, rfl⟩

theorem Asked.named {user : User} (h : Asked options userId log)
    (hmem : ⟨.store (.findUser userId), Except.ok (some user)⟩ ∈ log) :
    Named userId user.username log := by
  intro other hother
  obtain ⟨rest, rfl⟩ := h.found hmem
  obtain ⟨rest', hsame⟩ := h.found hother
  cases hsame
  rfl

theorem pageOf?_eq_some {event : Answered Task} {page : Page StarredRepo}
    (h : pageOf? event = some page) : ∃ identity username cursor perPage,
      event = ⟨.github identity (.starredPage username cursor perPage), Except.ok page⟩ := by
  unfold pageOf? at h
  split at h
  · split at h
    · cases h
      exact ⟨_, _, _, _, rfl⟩
    · cases h
  · cases h

theorem of_pages_eq {before after : List (Page StarredRepo)} {page : Page StarredRepo}
    (h : log.pages = before ++ page :: after) :
    ∃ earlier identity username cursor perPage later,
      log = earlier ++
        ⟨.github identity (.starredPage username cursor perPage), Except.ok page⟩ :: later ∧
      Log.pages earlier = before := by
  obtain ⟨first, rest, rfl, hfirst, hrest⟩ := List.filterMap_eq_append_iff.mp h
  obtain ⟨others, event, later, rfl, hnone, hevent, -⟩ := List.filterMap_eq_cons_iff.mp hrest
  obtain ⟨identity, username, cursor, perPage, rfl⟩ := pageOf?_eq_some hevent
  refine ⟨first ++ others, identity, username, cursor, perPage, later, by simp, ?_⟩
  rw [Log.pages_append, Log.pages, hfirst, Log.pages, List.filterMap_eq_nil_iff.mpr hnone,
    List.append_nil]

theorem Asked.gives (h : Asked options userId log) (hnamed : Named userId username log)
    (hlisted : log.ListedBy listing) : listing.Gives username options.pageSize log.pages := by
  intro before page after hpages
  obtain ⟨earlier, identity, name, cursor, perPage, later, rfl, rfl⟩ := of_pages_eq hpages
  have hasks := h earlier _ later rfl
  have hanswer := hlisted earlier identity name cursor perPage _ later rfl
  cases hasks with
  | @page _ user _ hfound hopen =>
    rw [hnamed user (List.mem_append_left _ hfound)] at hanswer
    exact ⟨hopen, hanswer.symm⟩

theorem Asked.not_refused (h : Asked options userId log) (hnamed : Named userId username log)
    (hlisted : log.ListedBy listing) (hgives : listing.Gives username options.pageSize pages)
    (hwhole : ∃ page ∈ pages, page.isLast = true) : ¬ log.Refused := by
  rintro ⟨identity, name, cursor, perPage, e, hmem⟩
  obtain ⟨before, after, rfl⟩ := List.append_of_mem hmem
  have hasks := h before _ after rfl
  have hanswer := hlisted before identity name cursor perPage _ after rfl
  have hbefore : listing.Gives username options.pageSize (Log.pages before) :=
    h.of_append.gives (hnamed.mono (List.subset_append_left _ _)) hlisted.of_append
  cases hasks with
  | @page _ user _ hfound hopen =>
    obtain ⟨page, hpage⟩ := hbefore.answers hopen hgives hwhole
    rw [hnamed user (List.mem_append_left _ hfound), hpage] at hanswer
    cases hanswer

end StarSync
end ReleaseTracker
