import ReleaseTracker.Proofs.GitHub.GraphQlListing
import ReleaseTracker.Proofs.GitHub.Responses
import ReleaseTracker.Proofs.Program.Runs

/-! All tags of a repository by query, whatever is replied. Each request goes on from the cursor
that the reply before it gave. The tags come together at the end, or not at all. -/

namespace ReleaseTracker

theorem Text.splitOnce_eq_some {mark : Char} {s : List Char} (h : mark ∈ s) :
    ∃ before after, splitOnce mark s = some (before, after) ∧ s = before ++ mark :: after ∧
      mark ∉ before := by
  induction s with
  | nil => cases h
  | cons c rest ih =>
    by_cases hmark : c = mark
    · exact ⟨[], rest, by rw [splitOnce, if_pos hmark], by rw [hmark]; rfl, by simp⟩
    · have hrest : mark ∈ rest := (List.mem_cons.mp h).resolve_left (Ne.symm hmark)
      obtain ⟨before, after, hsplit, rfl, hbefore⟩ := ih hrest
      refine ⟨c :: before, after, ?_, rfl, ?_⟩
      · rw [splitOnce, if_neg hmark, hsplit]
        rfl
      · simp [Ne.symm hmark, hbefore]

namespace GitHub
open Program

theorem Route.ownerAndName_of_slash {fullName : String} (h : '/' ∈ fullName.toList) :
    ∃ owner name, Route.ownerAndName fullName = .ok (owner, name) ∧
      fullName = owner ++ "/" ++ name ∧ '/' ∉ owner.toList := by
  obtain ⟨before, after, hsplit, hname, hbefore⟩ := Text.splitOnce_eq_some h
  refine ⟨String.ofList before, String.ofList after, by rw [ownerAndName, hsplit], ?_, ?_⟩
  · rw [← String.toList_inj, hname]
    simp
  · simpa using hbefore

def replying : Handler Exchange Fault (List Reply)
  | _, [] => (.error .unfinished, [])
  | _, reply :: rest => (.ok reply, rest)

namespace GraphQl

structure TagPart where
  tags : List Tag
  cursor : String

def Leads (fullName : String) (reply : Reply) (part : TagPart) : Prop :=
  hearTags fullName reply = .ok ⟨some ⟨true, some part.cursor⟩, part.tags⟩

/-- The reply tells of no tags, or it says nothing of a page after them, or that there is none, or
not where it starts. -/
def Closes (fullName : String) (reply : Reply) : Prop :=
  ∀ report, hearTags fullName reply = .ok report → ∀ info, report.info = some info →
    info.hasNext = false ∨ info.cursor = none

def tagExchanges (owner name : String) (cursors : List (Option String)) (replies : List Reply) :
    List (Answered Exchange) :=
  List.zipWith (fun cursor reply => ⟨tagsRequest owner name cursor, reply⟩) cursors replies

variable {fullName owner name : String} {budget : Nat} {after : Option String}

theorem Closes.next_eq_none {reply : Reply} (h : Closes fullName reply) {report : Report Tag}
    (hheard : hearTags fullName reply = .ok report) : report.next = none := by
  obtain ⟨info, tags⟩ := report
  cases info with
  | none => rfl
  | some info =>
    show info.next = none
    obtain hlast | hnowhere := h _ hheard info rfl
    · rw [PageInfo.next, if_neg (by simp [hlast])]
    · rw [PageInfo.next, hnowhere, ite_self]

def tagsHeard (fullName owner name : String) (budget : Nat) :
    Except ApiError (Report Tag) → Call (List Tag)
  | .error e => .done (.error e)
  | .ok report =>
    match report.next with
    | none => .done (.ok report.items)
    | some cursor => (tagsFrom fullName owner name budget (some cursor)).bind fun rest =>
        .done (rest.map (report.items ++ ·))

theorem tagsFrom_succ : tagsFrom fullName owner name (budget + 1) after =
    .ask (I := Exchange) (tagsRequest owner name after) fun (reply : Reply) =>
      tagsHeard fullName owner name budget (hearTags fullName reply) := by
  refine congrArg (Program.ask (I := Exchange) _) (funext fun (reply : Reply) => ?_)
  have hpage := hear_tagPage fullName reply
  show Program.bind (.done (hear fullName "repository" "refs" tagPage? reply)) _ = _
  rw [done_bind]
  -- the two readings of the reply fail together, or they have the same items and the same cursor
  generalize hear fullName "repository" "refs" tagPage? reply = found at hpage ⊢
  generalize hearTags fullName reply = told at hpage ⊢
  rcases found with e | ⟨⟨tags, next⟩, total⟩ <;> rcases told with e' | report <;> cases hpage
  · rfl
  · dsimp only [tagsHeard]
    cases report.next <;> rfl

theorem tagsFrom_run (reply : Reply) (later : List Reply) :
    (tagsFrom fullName owner name (budget + 1) after).run replying (reply :: later) =
      (tagsHeard fullName owner name budget (hearTags fullName reply)).run replying later := by
  rw [tagsFrom_succ]
  rfl

theorem tagsFrom_transcript (reply : Reply) (later : List Reply) :
    (tagsFrom fullName owner name (budget + 1) after).transcript replying (reply :: later) =
      ⟨tagsRequest owner name after, reply⟩ ::
        (tagsHeard fullName owner name budget (hearTags fullName reply)).transcript replying
          later := by
  rw [tagsFrom_succ]
  rfl

theorem tagsHeard_of_closes {reply : Reply} (h : Closes fullName reply) :
    tagsHeard fullName owner name budget (hearTags fullName reply) =
      .done ((hearTags fullName reply).map (·.items)) := by
  cases hheard : hearTags fullName reply with
  | error e => rfl
  | ok report =>
    rw [tagsHeard, h.next_eq_none hheard]
    rfl

theorem tagsHeard_of_leads {reply : Reply} {part : TagPart} (h : Leads fullName reply part) :
    tagsHeard fullName owner name budget (hearTags fullName reply) =
      (tagsFrom fullName owner name budget (some part.cursor)).bind fun rest =>
        .done (rest.map (part.tags ++ ·)) := by
  have hheard : hearTags fullName reply = _ := h
  rw [hheard]
  rfl

theorem tagsFrom_replying {leading : List Reply} {parts : List TagPart} {final : Reply}
    (later : List Reply) (hleading : List.Forall₂ (Leads fullName) leading parts)
    (hfinal : Closes fullName final) (hbudget : leading.length < budget) :
    (tagsFrom fullName owner name budget after).run replying (leading ++ final :: later) =
        (.ok ((hearTags fullName final).map fun report =>
          parts.flatMap (·.tags) ++ report.items), later) ∧
      (tagsFrom fullName owner name budget after).transcript replying
          (leading ++ final :: later) =
        tagExchanges owner name (after :: parts.map fun part => some part.cursor)
          (leading ++ [final]) := by
  induction hleading generalizing budget after with
  | nil =>
    obtain ⟨budget, rfl⟩ := Nat.exists_eq_add_one_of_ne_zero (Nat.ne_zero_of_lt hbudget)
    rw [List.nil_append, tagsFrom_run, tagsFrom_transcript, tagsHeard_of_closes hfinal]
    exact ⟨rfl, rfl⟩
  | @cons reply part leading parts hlead _ ih =>
    obtain ⟨budget, rfl⟩ := Nat.exists_eq_add_one_of_ne_zero (Nat.ne_zero_of_lt hbudget)
    obtain ⟨hrun, htranscript⟩ := @ih budget (some part.cursor) (Nat.lt_of_succ_lt_succ hbudget)
    rw [List.cons_append, tagsFrom_run, tagsFrom_transcript, tagsHeard_of_leads hlead, run_bind,
      transcript_bind, hrun, htranscript]
    refine ⟨?_, by simp [transcript, tagExchanges]⟩
    cases hearTags fullName final with
    | error e => rfl
    | ok report => simp [run, Except.map]

namespace Sample

def tag (name : String) : Json :=
  .obj [("name", .str name),
    ("target", .obj [("__typename", .str "Commit"), ("oid", .str name)])]

def page (info : List (String × Json)) (names : List String) : Reply :=
  .received 200 (.json (.obj [("data", .obj [("repository", .obj [("refs", .obj
    [("pageInfo", .obj info), ("nodes", .arr (names.map tag))])])])]))

def first : Reply := page [("hasNextPage", .bool true), ("endCursor", .str "c1")] ["v1", "v2"]

def second : Reply := page [("hasNextPage", .bool true), ("endCursor", .str "c2")] []

def last : Reply := page [("hasNextPage", .bool true), ("endCursor", .null)] ["v3"]

def limited : Reply :=
  .received 200 (.json (.obj [("errors", .arr [.obj [("type", .str "RATE_LIMITED")]])]))

def commit (name : String) : Tag := ⟨name, name, .commit⟩

def parts : List TagPart := [⟨[commit "v1", commit "v2"], "c1"⟩, ⟨[], "c2"⟩]

theorem leads : List.Forall₂ (Leads "o/r/x") [first, second] parts := .cons rfl (.cons rfl .nil)

theorem closes_last : Closes "o/r/x" last := by
  intro report hheard info hinfo
  have hreport : report = ⟨some ⟨true, none⟩, [commit "v3"]⟩ := (Except.ok.inj hheard).symm
  rw [hreport] at hinfo
  obtain rfl := Option.some.inj hinfo
  exact .inr rfl

theorem closes_limited : Closes "o/r/x" limited := by
  intro report hheard
  cases hheard

end Sample

end GraphQl
end GitHub
end ReleaseTracker
