import ReleaseTracker.Proofs.Work.Abort
import ReleaseTracker.Proofs.Work.Workshop

/-! Removal is permanent. A mark is only ever set by the unit that works on its subject, which has
seen that it was not set and has written nothing since. Nobody else can have set it meanwhile, and
what is known of a repository is refreshed without touching the mark. So a mark stays, and units
that begin later find it and give way. -/

namespace ReleaseTracker
open Program StoreRule

/-! What writes and marks leave of a mark -/

theorem find?_map_of_fixed {α : Type} {p : α → Bool} {f : α → α} (hp : ∀ a, p (f a) = p a)
    (hf : ∀ a, p a = true → f a = a) (xs : List α) : (xs.map f).find? p = xs.find? p := by
  induction xs with
  | nil => rfl
  | cons a rest ih =>
    rw [List.map_cons, List.find?_cons, List.find?_cons, hp a, ih]
    cases ha : p a with
    | true => rw [hf a ha]
    | false => rfl

theorem Tables.user?_markUserRemoved_of_ne {t : Tables} {id other : Int} (h : other ≠ id)
    (time : ZonedTime) : (t.markUserRemoved id time).user? other = t.user? other := by
  refine find?_map_of_fixed (fun user => ?_) (fun user huser => if_neg ?_) t.users
  · split_ifs <;> rfl
  · rintro rfl
    exact h (of_decide_eq_true huser).symm

theorem Tables.repo?_markRepoRemoved_of_ne {t : Tables} {id other : Int} (h : other ≠ id)
    (time : ZonedTime) : (t.markRepoRemoved id time).repo? other = t.repo? other := by
  refine find?_map_of_fixed (fun repo => ?_) (fun repo hrepo => if_neg ?_) t.repos
  · split_ifs <;> rfl
  · rintro rfl
    exact h (of_decide_eq_true hrepo).symm

namespace WorkItem
variable {item other : WorkItem} {ids : List Int} {t t' : Tables}

theorem removalIn_markedIn_of_ne (h : item ≠ other) (time : Instant) :
    item.removalIn (other.markedIn t time) = item.removalIn t := by
  cases item with
  | stars userId =>
    cases other with
    | stars otherId =>
      have hid : userId ≠ otherId := fun hid => h (congrArg _ hid)
      exact congrArg (Option.map _) (Tables.user?_markUserRemoved_of_ne hid _)
    | versions => rfl
  | versions repoId =>
    cases other with
    | stars => rfl
    | versions otherId =>
      have hid : repoId ≠ otherId := fun hid => h (congrArg _ hid)
      exact congrArg (Option.map _) (Tables.repo?_markRepoRemoved_of_ne hid _)

theorem Writes.removalIn {removedAt : Option ZonedTime} (h : other.Writes ids t t')
    (hitem : item.removalIn t = some removedAt) : item.removalIn t' = some removedAt := by
  cases h with
  | @refreshed _ id draft =>
    cases item with
    | stars => exact hitem
    | versions repoId =>
      obtain ⟨repo, hrepo, hremoved⟩ := Option.map_eq_some_iff.mp hitem
      show ((t.upsertRepo id draft).repo? repoId).map _ = _
      rw [Tables.repo?_upsertRepo]
      split_ifs with hid
      · rw [← hid, hrepo]
        exact congrArg some hremoved
      · exact hitem
  | _ => cases item <;> exact hitem

end WorkItem

/-! Turns -/

/-- A unit that keeps to its contract, and that has seen of its subject what is so still, as long as
it has not written anything. -/
structure Course.Sound (item : WorkItem) (t : Tables) (course : Course) : Prop where
  contract : course.rest.Ensures Task.Proper item.Permits (fun _ _ => True) course.log
  seen : ∀ found : item.lookup.Result, item.removal found = some none →
    ⟨.store item.lookup, Except.ok found⟩ ∈ course.log → course.log.Harmless →
      item.removalIn t = some none

namespace Course
variable {item other : WorkItem} {t t' : Tables} {log : Log} {query : Task.Query}
  {next : Task.Answer query → Work Outcome} {answer : Task.Answer query}

theorem Sound.turn (h : Sound item t ⟨log, .ask (I := Task) query next⟩)
    (hanswered : fallible.conduct t query answer t') :
    Sound item t' ⟨log ++ [⟨query, answer⟩], next answer⟩ where
  contract := h.contract.2 answer (proper_of_fallible hanswered)
  seen found hpresent hfound hharmless := by
    obtain ⟨hbefore, hlast⟩ := List.forall_mem_append.mp hharmless
    have hnone : query.hasEffect = false := hlast _ List.mem_cons_self
    obtain rfl := eq_of_not_hasEffect hnone hanswered
    rcases List.mem_append.mp hfound with hfound | hfound
    · exact h.seen found hpresent hfound hbefore
    · cases List.mem_singleton.mp hfound
      rw [← removal_of_lookup hanswered, hpresent]

theorem Sound.keeps_removal {removedAt : Option ZonedTime}
    (h : Sound other t ⟨log, .ask (I := Task) query next⟩)
    (hanswered : fallible.conduct t query answer t') (hitem : item.removalIn t = some removedAt)
    (hset : item = other → removedAt ≠ none) : item.removalIn t' = some removedAt := by
  obtain hwrites | ⟨time, chosen, rfl, hentered, hharmless⟩ := h.contract.1.writes hanswered
  · exact hwrites.removalIn hitem
  by_cases hsame : item = other
  · subst hsame
    obtain ⟨identity, found, calls, rest, hpresent, -, hlog⟩ := hentered
    -- nothing was written since the look-up, so nobody has set the mark meanwhile
    have hopen : item.removalIn t = some none :=
      h.seen found hpresent (by rw [hlog]; simp) hharmless
    exact absurd (Option.some.inj (hitem.symm.trans hopen)) (hset rfl)
  · rw [WorkItem.removalIn_markedIn_of_ne hsame, hitem]

end Course

namespace Workshop
variable {w w' : Workshop} {item : WorkItem} {time : ZonedTime}

def Sound (w : Workshop) : Prop :=
  ∀ item course, w.units item = some course → Course.Sound item w.tables course

theorem sound_vacant (t : Tables) : (vacant t).Sound := by
  intro item course hcourse
  cases hcourse

theorem Step.sound (hstep : Step fallible w w') (h : w.Sound) : w'.Sound := by
  intro item course hcourse
  cases hstep with
  | begin engine other hfree =>
    obtain ⟨rfl, ⟨⟩⟩ | ⟨-, hcourse⟩ := of_place hcourse
    · exact ⟨Engine.handle_ensures, fun found _ hfound => by cases hfound⟩
    · exact h item course hcourse
  | turn hunder hanswered =>
    have hturning := h _ _ hunder
    obtain ⟨rfl, ⟨⟩⟩ | ⟨hother, hcourse⟩ := of_place hcourse
    · exact hturning.turn hanswered
    · have hsound := h item course hcourse
      -- the unit whose turn it was works on another subject and leaves this one's mark alone
      refine ⟨hsound.contract, fun found hpresent hfound hharmless => ?_⟩
      exact hturning.keeps_removal hanswered (hsound.seen found hpresent hfound hharmless)
        fun heq => absurd heq hother
  | leave other =>
    obtain ⟨-, ⟨⟩⟩ | ⟨-, hcourse⟩ := of_place hcourse
    exact h item course hcourse

theorem Step.keeps_removal (hstep : Step fallible w w') (h : w.Sound)
    (hremoved : item.removalIn w.tables = some (some time)) :
    item.removalIn w'.tables = some (some time) := by
  cases hstep with
  | begin | leave => exact hremoved
  | turn hunder hanswered =>
    exact (h _ _ hunder).keeps_removal hanswered hremoved fun _ => Option.some_ne_none time

theorem Reaches.sound (h : Reaches fallible w w') (hsound : w.Sound) : w'.Sound := by
  induction h with
  | refl => exact hsound
  | tail _ hstep ih => exact hstep.sound ih

theorem Reaches.keeps_removal (h : Reaches fallible w w') (hsound : w.Sound)
    (hremoved : item.removalIn w.tables = some (some time)) :
    item.removalIn w'.tables = some (some time) := by
  induction h with
  | refl => exact hremoved
  | tail hbefore hstep ih => exact hstep.keeps_removal (Reaches.sound hbefore hsound) ih

end Workshop

/-! Work on a removed subject -/

def Task.WhileRemoved (item : WorkItem) (query : Task.Query) (answer : Task.Answer query) : Prop :=
  ∀ found : item.lookup.Result,
    (⟨query, answer⟩ : Answered Task) = ⟨.store item.lookup, Except.ok found⟩ →
      ∃ time, item.removal found = some (some time)

def WorkItem.MayAskRemoved (item : WorkItem) (log : Log) (query : Task.Query) : Prop :=
  log.Choosing ∧ (query.isChoice = true ∨ query = .store item.lookup)

/-- Nothing was done, because the subject was removed before, or for want of an identity. The store
may also have failed. -/
def Log.GaveWay (log : Log) (result : Except Fault Outcome) : Prop :=
  result = .ok (.aborted .alreadyRemoved) ∨ result = .ok (.aborted .noClient) ∨
    ∃ call e, result = .error (.store e) ∧ ⟨.store call, Except.error e⟩ ∈ log

section Removed
variable {item : WorkItem} {t t' : Tables} {time : ZonedTime} {log : Log} {query : Task.Query}
  {answer : Task.Answer query}

theorem whileRemoved_of_fallible (hremoved : item.removalIn t = some (some time))
    (h : fallible.conduct t query answer t') : Task.WhileRemoved item query answer := by
  intro found heq
  cases heq
  exact ⟨time, (removal_of_lookup h).trans hremoved⟩

theorem WorkItem.MayAskRemoved.not_hasEffect (h : item.MayAskRemoved log query) :
    query.hasEffect = false := by
  obtain ⟨-, hchoice | rfl⟩ := h
  · exact Task.Query.not_hasEffect_of_isChoice hchoice
  · cases item <;> rfl

theorem Engine.handle_ensures_removed {engine : Engine} :
    Program.Ensures (Task.WhileRemoved item) item.MayAskRemoved Log.GaveWay []
      (engine.handle item) := by
  have hfind : Program.Ensures (Task.WhileRemoved item) item.MayAskRemoved Task.HasChosen []
      engine.selector.find :=
    (Selector.find_ensures (List.forall_mem_nil _)).mono (fun _ _ => id)
      (fun _ _ h => ⟨h.1, .inl h.2⟩) fun _ _ => id
  refine hfind.bind (fun log client? hchosen => ?_) fun log fault hchosen => ?_
  · cases client? with
    | none => exact .inr (.inl rfl)
    | some client =>
      show Program.Ensures _ _ _ log (engine.sync (engine.selector.caller client) item)
      rw [sync_eq]
      refine Work.ensures_store_bind_iff.mpr ⟨⟨hchosen.1, .inr rfl⟩, fun e _ => ?_,
        fun found hfound => ?_⟩
      · exact .inr (.inr ⟨item.lookup, e, rfl, by simp⟩)
      · obtain ⟨time, hremoved⟩ := hfound found rfl
        unfold attend
        rw [hremoved]
        exact .inl rfl
  · obtain ⟨call, e, rfl, hfailed⟩ := hchosen.2 fault rfl
    exact .inr (.inr ⟨call, e, rfl, hfailed⟩)

end Removed

structure Course.Idle (item : WorkItem) (course : Course) : Prop where
  log : ∃ chosen looked, course.log = chosen ++ looked ∧ Log.Choosing chosen ∧
    (looked = [] ∨ ∃ answer, looked = [⟨.store item.lookup, answer⟩])
  harmless : course.log.Harmless
  requests : ∀ request ∈ course.log.requests, request.2 = .remainingCalls
  ended : ∀ result, course.rest.result? = some result → course.log.GaveWay result

namespace Course
variable {item : WorkItem}

structure Late (item : WorkItem) (course : Course) : Prop where
  contract : course.rest.Ensures (Task.WhileRemoved item) item.MayAskRemoved Log.GaveWay course.log
  log : ∃ chosen looked, course.log = chosen ++ looked ∧ Log.Choosing chosen ∧
    (looked = [] ∨ ∃ answer, looked = [⟨.store item.lookup, answer⟩])

theorem late_handle (engine : Engine) (item : WorkItem) : Late item ⟨[], engine.handle item⟩ :=
  ⟨Engine.handle_ensures_removed, [], [], rfl, List.forall_mem_nil _, .inl rfl⟩

theorem Late.turn {log : Log} {query : Task.Query} {next : Task.Answer query → Work Outcome}
    {answer : Task.Answer query} (h : Late item ⟨log, .ask (I := Task) query next⟩)
    (hanswer : Task.WhileRemoved item query answer) :
    Late item ⟨log ++ [⟨query, answer⟩], next answer⟩ := by
  refine ⟨h.contract.2 answer hanswer, ?_⟩
  obtain ⟨hchoosing, hchoice | rfl⟩ := h.contract.1
  · exact ⟨_, [], (List.append_nil _).symm, hchoosing.snoc hchoice, .inl rfl⟩
  · exact ⟨log, _, rfl, hchoosing, .inr ⟨answer, rfl⟩⟩

theorem Late.idle {course : Course} (h : Late item course) : course.Idle item := by
  have hended (result : Except Fault Outcome) (hresult : course.rest.result? = some result) :
      course.log.GaveWay result := h.contract.of_result? hresult
  obtain ⟨chosen, looked, hlog, hchoosing, rfl | ⟨answer, rfl⟩⟩ := h.log
  · have hall : course.log.Choosing := by simpa [hlog] using hchoosing
    exact ⟨h.log, hall.harmless, hall.requests, hended⟩
  · refine ⟨h.log, ?_, ?_, hended⟩
    · rw [hlog]
      exact hchoosing.harmless.lookup
    · rw [hlog]
      simpa using hchoosing.requests

theorem Late.gives_way {σ : Type} {course : Course} {time : ZonedTime} (h : Late item course)
    (w : Surroundings fallible σ) (s : σ)
    (hremoved : item.removalIn (w.tables s) = some (some time)) :
    Log.GaveWay (course.log ++ w.transcript course.rest s) (w.run course.rest s).1 := by
  refine (h.contract.runs_while (fun t => item.removalIn t = some (some time))
    (w.runs course.rest s) hremoved fun log t query answer t' hasks ht hanswered => ?_).1
  obtain rfl := eq_of_not_hasEffect hasks.not_hasEffect hanswered
  exact ⟨whileRemoved_of_fallible ht hanswered, ht⟩

end Course

namespace Workshop
variable {w w' : Workshop} {item : WorkItem} {time : ZonedTime}

theorem Step.late (hstep : Step fallible w w')
    (hremoved : item.removalIn w.tables = some (some time))
    (h : ∀ course, w.units item = some course → course.Late item) :
    ∀ course, w'.units item = some course → course.Late item := by
  intro course hcourse
  cases hstep with
  | begin engine other hfree =>
    obtain ⟨rfl, ⟨⟩⟩ | ⟨-, hcourse⟩ := of_place hcourse
    · exact Course.late_handle engine item
    · exact h course hcourse
  | turn hunder hanswered =>
    obtain ⟨rfl, ⟨⟩⟩ | ⟨-, hcourse⟩ := of_place hcourse
    · exact (h _ hunder).turn (whileRemoved_of_fallible hremoved hanswered)
    · exact h course hcourse
  | leave other =>
    obtain ⟨-, ⟨⟩⟩ | ⟨-, hcourse⟩ := of_place hcourse
    exact h course hcourse

theorem Reaches.late (hreaches : Reaches fallible w w') (hsound : w.Sound)
    (hremoved : item.removalIn w.tables = some (some time)) (hfree : w.units item = none) :
    ∀ course, w'.units item = some course → course.Late item := by
  induction hreaches with
  | refl =>
    intro course hcourse
    rw [hfree] at hcourse
    cases hcourse
  | tail hbefore hstep ih =>
    exact hstep.late (Reaches.keeps_removal hbefore hsound hremoved) ih

end Workshop

/-- Once it is noted when a user or a repository was removed, the note stays as it is, whichever
units of work begin, take turns and leave, at most one at a time for each item. A unit that begins
for it later chooses an identity, looks up the subject and gives way, wherever it is run to its
end. -/
theorem removal_is_permanent {t : Tables} {before after : Workshop} {item : WorkItem}
    {time : ZonedTime} (hbefore : Workshop.Reaches fallible (.vacant t) before)
    (hremoved : item.removalIn before.tables = some (some time))
    (hafter : Workshop.Reaches fallible before after) :
    item.removalIn after.tables = some (some time) ∧
    (before.units item = none → ∀ course, after.units item = some course → course.Idle item ∧
      ∀ {σ : Type} (w : Surroundings fallible σ) (s : σ),
        item.removalIn (w.tables s) = some (some time) →
          Log.GaveWay (course.log ++ w.transcript course.rest s) (w.run course.rest s).1) := by
  have hsound : before.Sound := Workshop.Reaches.sound hbefore (Workshop.sound_vacant t)
  refine ⟨Workshop.Reaches.keeps_removal hafter hsound hremoved, fun hfree course hcourse => ?_⟩
  have hlate := Workshop.Reaches.late hafter hsound hremoved hfree course hcourse
  exact ⟨hlate.idle, hlate.gives_way⟩

namespace Workshop.Sample

def facts : GitHub.Facts
  | .remainingCalls => .ok 9
  | .starredPage _ _ _ => .ok ⟨[{ StarSync.Sample.item 3 with fullName := "o/moved" }], none⟩
  | _ => .error (.notFound "")

def engine : Engine :=
  ⟨⟨some (.app "id" "secret"), 1, 1⟩, { SyncOptions.default 2 with staleSeconds := -1 }⟩

def marked : Tables :=
  ((Engine.Sample.world facts).run (engine.handle (.versions 3)) StarSync.Sample.tables).2

def listed : Tables := ((Engine.Sample.world facts).run (engine.handle (.stars 1)) marked).2

end Workshop.Sample

open Workshop Workshop.Sample in
theorem removal_is_permanent_listed :
    (WorkItem.versions 3).removalIn StarSync.Sample.tables = some none ∧
    Reaches fallible (vacant StarSync.Sample.tables) (vacant marked) ∧
    (WorkItem.versions 3).removalIn marked = some (some (.utc StarSync.Sample.time)) ∧
    (listed.repo? 3).map (·.fullName) ≠ (marked.repo? 3).map (·.fullName) ∧
    ∃ after, Reaches fallible (vacant marked) after ∧
      (WorkItem.versions 3).removalIn after.tables = some (some (.utc StarSync.Sample.time)) ∧
      ∃ course, after.units (.versions 3) = some course ∧ course.Idle (.versions 3) ∧
        course.rest.result? = some (.ok (.aborted .alreadyRemoved)) := by
  have hbefore : Reaches fallible (vacant StarSync.Sample.tables) (vacant marked) :=
    reaches_vacant (Engine.Sample.world facts) engine (.versions 3) StarSync.Sample.tables
  have hremoved : (WorkItem.versions 3).removalIn (vacant marked).tables =
      some (some (.utc StarSync.Sample.time)) := by decide
  have hlisted : Reaches fallible (vacant marked) (vacant listed) :=
    reaches_vacant (Engine.Sample.world facts) engine (.stars 1) marked
  have hagain := reaches_handled (Engine.Sample.world facts) engine (.versions 3) listed
  obtain ⟨hstill, hlate⟩ := removal_is_permanent hbefore hremoved (hlisted.trans hagain)
  refine ⟨by decide, hbefore, hremoved, by decide, _, hlisted.trans hagain, hstill, _, place_self,
    (hlate rfl _ place_self).1, rfl⟩

end ReleaseTracker
