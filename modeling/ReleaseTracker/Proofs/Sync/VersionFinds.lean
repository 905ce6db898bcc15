import ReleaseTracker.Proofs.Lists.Newcomers
import ReleaseTracker.Proofs.Sync.VersionBatches

/-! What a survey finds, given what GitHub tells of the tags: a row for each newcomer among those
that are missing. What a tag comes to is the same in every survey. -/

namespace ReleaseTracker
open GitHub (Tag ObjectKind Release Blob SignedMessage)
open Program

def GitHub.ObjectKind.isKnown : ObjectKind → Bool
  | .other _ => false
  | _ => true

/-- Is there something to tell of a tag: a release, or an object of a known kind? A question that
fails does not rule it out. -/
def GitHub.Facts.resolves (facts : GitHub.Facts) (fullName : String) (tag : Tag) : Bool :=
  match (facts (.releaseByTag fullName tag.name) : Except ApiError (Option Release)) with
  | .ok release => release.isSome || tag.kind.isKnown
  | .error _ => true

namespace VersionSync
variable {identity : Identity} {repo : Repo} {tag : Tag} {tags : List Tag} {facts : GitHub.Facts}
  {start : Tables} {rows : List Version} {log : Log}

/-! One tag -/

section Told
variable {σ : Type} {conduct : Conduct Task σ} {s s' : σ} {fullName : String}

theorem describeObject_none_iff {answer : Except ApiError (Option Description)}
    (hrun : (describeObject identity fullName tag).Runs conduct s log (.ok answer) s') :
    answer = .ok none ↔ tag.kind.isKnown = false := by
  unfold describeObject at hrun
  cases hkind : tag.kind with
  | tag | commit =>
    rw [hkind] at hrun
    obtain ⟨object, mid, rest, -, hrest, -⟩ := runs_ask_iff.mp hrun
    change Except ApiError SignedMessage at object
    obtain ⟨-, hanswer, -⟩ := runs_done_iff.mp hrest
    cases hanswer
    cases object <;> simp [Except.map, ObjectKind.isKnown]
  | blob =>
    rw [hkind] at hrun
    obtain ⟨object, mid, rest, -, hrest, -⟩ := runs_ask_iff.mp hrun
    change Except ApiError Blob at object
    cases object with
    | error e =>
      obtain ⟨-, hanswer, -⟩ := runs_done_iff.mp hrest
      cases hanswer
      simp [ObjectKind.isKnown]
    | ok blob =>
      obtain ⟨now, mid, last, -, hlast, -⟩ := runs_ask_iff.mp hrest
      obtain ⟨-, hanswer, -⟩ := runs_done_iff.mp hlast
      cases hanswer
      simp [ObjectKind.isKnown]
  | other name =>
    rw [hkind] at hrun
    obtain ⟨-, hanswer, -⟩ := runs_done_iff.mp hrun
    cases hanswer
    simp [ObjectKind.isKnown]

theorem describe_none_iff {answer : Except ApiError (Option Description)}
    (hrun : (describe identity fullName tag).Runs conduct s log (.ok answer) s')
    (htold : log.ToldBy facts) :
    answer = .ok none ↔ facts.resolves fullName tag = false := by
  obtain ⟨found, mid, rest, -, hrest, rfl⟩ := runs_ask_iff.mp hrun
  change Except ApiError (Option Release) at found
  rw [done_bind] at hrest
  unfold GitHub.Facts.resolves
  rw [← htold _ _ _ List.mem_cons_self]
  match found with
  | .error e =>
    obtain ⟨-, hanswer, -⟩ := runs_done_iff.mp hrest
    cases hanswer
    simp
  | .ok none => exact describeObject_none_iff hrest
  | .ok (some release) =>
    obtain ⟨e, -, he⟩ | ⟨description, mid, first, last, -, hlast, -⟩ := runs_bind_iff.mp hrest
    · cases he
    · obtain ⟨-, hanswer, -⟩ := runs_done_iff.mp hlast
      cases hanswer
      simp

theorem examine_none_iff {answer : Except StopReason (Option Version)}
    (hrun : (examine identity repo tag).Runs conduct s log (.ok answer) s')
    (htold : log.ToldBy facts) :
    answer = .ok none ↔ facts.resolves repo.fullName tag = false := by
  obtain ⟨e, -, he⟩ | ⟨found, mid, first, rest, hdescribe, hrest, rfl⟩ := runs_bind_iff.mp hrun
  · cases he
  rw [← describe_none_iff hdescribe (htold.mono (List.subset_append_left _ _))]
  match found with
  | .error e | .ok none =>
    obtain ⟨-, hanswer, -⟩ := runs_done_iff.mp hrest
    cases hanswer
    simp
  | .ok (some description) =>
    obtain ⟨e, -, he⟩ | ⟨body, mid, second, last, -, hlast, -⟩ := runs_bind_iff.mp hrest
    · cases he
    · cases body <;>
      · obtain ⟨-, hanswer, -⟩ := runs_done_iff.mp hlast
        cases hanswer
        simp

end Told

/-- Does a tag resolve although no version of its very name is stored? -/
def isMissing (facts : GitHub.Facts) (t : Tables) (repo : Repo) (tag : Tag) : Bool :=
  !t.hasVersion repo.id tag.name && facts.resolves repo.fullName tag

inductive Taken (facts : GitHub.Facts) (repo : Repo) (start : Tables) (rows : List Version)
    (tag : Tag) (log : Log) : List Version × Option StopReason → Prop
  | added {row : Version} (missing : isMissing facts start repo tag = true)
      (new : isTaken rows tag.name = false) (name : row.tagName = tag.name) :
      Taken facts repo start rows tag log (rows ++ [row], none)
  | passedOver
      (old : ¬ (isMissing facts start repo tag = true ∧ isTaken rows tag.name = false)) :
      Taken facts repo start rows tag log (rows, none)
  | stopped {reason : StopReason} (missing : isMissing facts start repo tag = true)
      (failing : ¬ log.Unfailing) : Taken facts repo start rows tag log (rows, some reason)

theorem surveyTag_taken {finds : List Version × Option StopReason}
    (hrun : (surveyTag identity repo start rows tag).Runs anyhow () log (.ok finds) ())
    (htold : log.ToldBy facts) : Taken facts repo start rows tag log finds := by
  unfold surveyTag at hrun
  split_ifs at hrun with hknown
  · obtain ⟨-, hfinds, -⟩ := runs_done_iff.mp hrun
    cases hfinds
    refine .passedOver fun ⟨hmissing, hnew⟩ => ?_
    rcases Bool.or_eq_true_iff.mp hknown with hstored | htaken
    · simp [isMissing, hstored] at hmissing
    · rw [hnew] at htaken
      cases htaken
  -- from here on the name is neither stored nor taken, so it depends on what GitHub tells
  obtain ⟨hfresh, hnew⟩ := not_or.mp (mt Bool.or_eq_true_iff.mpr hknown)
  obtain ⟨e, -, he⟩ | ⟨answer, mid, first, last, hexamine, hlast, rfl⟩ := runs_bind_iff.mp hrun
  · cases he
  have hnone := examine_none_iff hexamine (htold.mono (List.subset_append_left _ _))
  obtain ⟨-, -, _, hok, hend⟩ := examine_inquiry.runs hexamine
  obtain rfl := Except.ok.inj hok
  have hmissing (hsome : answer ≠ .ok none) : isMissing facts start repo tag = true := by
    have hresolves := mt hnone.mpr hsome
    simp_all [isMissing]
  match answer with
  | .error reason =>
    obtain ⟨-, hfinds, -⟩ := runs_done_iff.mp hlast
    cases hfinds
    obtain ⟨-, found, hfound, -⟩ | ⟨call, hfailed, -⟩ := hend
    · cases hfound
    · exact .stopped (hmissing (by simp)) fun hlog =>
        hfailed.not_unfailing (hlog.mono (List.subset_append_left _ _))
  | .ok none =>
    obtain ⟨-, hfinds, -⟩ := runs_done_iff.mp hlast
    cases hfinds
    rw [Option.toList_none, List.append_nil]
    exact .passedOver (by simp [isMissing, hnone.mp rfl])
  | .ok (some row) =>
    obtain ⟨-, hfinds, -⟩ := runs_done_iff.mp hlast
    cases hfinds
    obtain ⟨-, found, hfound, hrow⟩ := hend.resolve_right fun ⟨_, _, h⟩ => by cases h
    obtain rfl := Except.ok.inj hfound
    exact .added (hmissing (by simp)) (by simpa using hnew) (hrow row rfl).2

def ComesTo (facts : GitHub.Facts) (identity : Identity) (repo : Repo) (log : Log) (tag : Tag)
    (row : Version) : Prop :=
  ∃ part ⊆ log, part.ToldBy facts ∧
    (examine identity repo tag).Runs anyhow () part (.ok (.ok (some row))) ()

theorem ComesTo.mono {log' : Log} {row : Version} (h : ComesTo facts identity repo log tag row)
    (hsub : log ⊆ log') : ComesTo facts identity repo log' tag row := by
  obtain ⟨part, hpart, hrest⟩ := h
  exact ⟨part, List.Subset.trans hpart hsub, hrest⟩

theorem ComesTo.tagName_eq {row : Version} (h : ComesTo facts identity repo log tag row) :
    row.tagName = tag.name := by
  obtain ⟨part, -, -, hexamine⟩ := h
  obtain ⟨-, -, _, hok, hend⟩ := examine_inquiry.runs hexamine
  obtain rfl := Except.ok.inj hok
  obtain ⟨-, found, hfound, hrow⟩ := hend.resolve_right fun ⟨_, _, h⟩ => by cases h
  exact (hrow row (Except.ok.inj hfound).symm).2

theorem ComesTo.sameRow {log' : Log} {row row' : Version}
    (h : ComesTo facts identity repo log tag row) (h' : ComesTo facts identity repo log' tag row') :
    SameRow (log.Showed log') row row' := by
  obtain ⟨part, hpart, htold, hexamine⟩ := h
  obtain ⟨part', hpart', htold', hexamine'⟩ := h'
  have hreplied : part.RepliedBy (fun _ _ call => facts call) [] :=
    htold.repliedBy fun _ _ _ => rfl
  have hreplied' : part'.RepliedBy (fun _ _ call => facts call) [] :=
    htold'.repliedBy fun _ _ _ => rfl
  obtain ⟨-, answer, answer', hanswer, hanswer', hsame⟩ :=
    examine_twins.runs hexamine hexamine' hreplied hreplied' fun _ _ => And.intro
  obtain rfl := Except.ok.inj hanswer
  obtain rfl := Except.ok.inj hanswer'
  cases hsame with
  | found hsame => exact hsame.mono (Log.showed_mono hpart hpart')

theorem surveyTag_found {found : List Version} {stop : Option StopReason}
    (hrun : (surveyTag identity repo start rows tag).Runs anyhow () log (.ok (found, stop)) ())
    (htold : log.ToldBy facts) :
    found = rows ∨ ∃ row, found = rows ++ [row] ∧ ComesTo facts identity repo log tag row := by
  unfold surveyTag at hrun
  split_ifs at hrun
  · cases (runs_done_iff.mp hrun).2.1
    exact .inl rfl
  obtain ⟨e, -, he⟩ | ⟨answer, mid, first, last, hexamine, hlast, rfl⟩ := runs_bind_iff.mp hrun
  · cases he
  match answer with
  | .error reason =>
    cases (runs_done_iff.mp hlast).2.1
    exact .inl rfl
  | .ok none =>
    cases (runs_done_iff.mp hlast).2.1
    exact .inl (List.append_nil rows)
  | .ok (some row) =>
    cases (runs_done_iff.mp hlast).2.1
    have hfirst : first ⊆ first ++ last := List.subset_append_left first last
    exact .inr ⟨row, rfl, first, hfirst, htold.mono hfirst, hexamine⟩

/-! All tags -/

theorem survey_comes {rows' : List Version} {seen : List String}
    (hseen : ∀ name, isTaken rows name = true ↔ Text.lowerCase name ∈ seen)
    (hrun : (survey identity repo start rows tags).Runs anyhow () log (.ok (rows', none)) ())
    (htold : log.ToldBy facts) :
    ∃ added, rows' = rows ++ added ∧ List.Forall₂ (ComesTo facts identity repo log)
      (newcomers (fun tag => Text.lowerCase tag.name) (isMissing facts start repo) seen tags)
      added := by
  -- the names seen by `newcomers` are those of the rows found so far
  induction tags generalizing rows seen log with
  | nil =>
    cases (runs_done_iff.mp hrun).2.1
    exact ⟨[], (List.append_nil rows').symm, .nil⟩
  | cons tag rest ih =>
    obtain ⟨e, -, he⟩ | ⟨⟨rows₁, stop₁⟩, ⟨⟩, log₁, log₂, htag, hrest, rfl⟩ := runs_bind_iff.mp hrun
    · cases he
    have htold₁ : Log.ToldBy facts log₁ := htold.mono (List.subset_append_left _ _)
    have htold₂ : Log.ToldBy facts log₂ := htold.mono (List.subset_append_right _ _)
    cases surveyTag_taken htag htold₁ with
    | @added row hmissing hnew hname =>
      obtain hnone | ⟨_, hsame, hcomes⟩ := surveyTag_found htag htold₁
      · simp at hnone
      obtain rfl := List.singleton_inj.mp (List.append_cancel_left hsame)
      have hunseen : Text.lowerCase tag.name ∉ seen := by
        rw [← hseen, hnew]
        exact Bool.false_ne_true
      have hseen₁ (name : String) : isTaken (rows ++ [row]) name = true ↔
          Text.lowerCase name ∈ Text.lowerCase tag.name :: seen := by
        rw [isTaken_append_singleton, Bool.or_eq_true, hseen, beq_iff_eq, hname, List.mem_cons,
          or_comm, eq_comm]
      obtain ⟨added, rfl, hadded⟩ := ih hseen₁ hrest htold₂
      refine ⟨row :: added, by simp, ?_⟩
      rw [newcomers_cons_of_new ⟨hmissing, hunseen⟩]
      exact .cons (hcomes.mono (List.subset_append_left _ _))
        (hadded.imp fun _ _ h => h.mono (List.subset_append_right _ _))
    | passedOver hold =>
      obtain ⟨added, rfl, hadded⟩ := ih hseen hrest htold₂
      refine ⟨added, rfl, ?_⟩
      rw [newcomers_cons_of_old]
      · exact hadded.imp fun _ _ h => h.mono (List.subset_append_right _ _)
      · rwa [← hseen, Bool.not_eq_true]
    | stopped => cases (runs_done_iff.mp hrest).2.1

theorem survey_cut {rows' : List Version} {reason : StopReason}
    (hrun : (survey identity repo start rows tags).Runs anyhow () log (.ok (rows', some reason)) ())
    (htold : log.ToldBy facts) :
    (∃ tag ∈ tags, isMissing facts start repo tag = true) ∧ ¬ log.Unfailing := by
  induction tags generalizing rows log with
  | nil => cases (runs_done_iff.mp hrun).2.1
  | cons tag rest ih =>
    obtain ⟨e, -, he⟩ | ⟨⟨rows₁, stop₁⟩, ⟨⟩, log₁, log₂, htag, hrest, rfl⟩ := runs_bind_iff.mp hrun
    · cases he
    have hlater (h : (∃ later ∈ rest, isMissing facts start repo later = true) ∧
        ¬ Log.Unfailing log₂) : (∃ later ∈ tag :: rest, isMissing facts start repo later = true) ∧
          ¬ Log.Unfailing (log₁ ++ log₂) := by
      obtain ⟨⟨later, hmem, hmissing⟩, hfailing⟩ := h
      exact ⟨⟨later, List.mem_cons_of_mem _ hmem, hmissing⟩,
        fun hlog => hfailing (hlog.mono (List.subset_append_right _ _))⟩
    have htold₂ : Log.ToldBy facts log₂ := htold.mono (List.subset_append_right _ _)
    cases surveyTag_taken htag (htold.mono (List.subset_append_left _ _)) with
    | added | passedOver => exact hlater (ih hrest htold₂)
    | stopped hmissing hfailing =>
      exact ⟨⟨tag, List.mem_cons_self, hmissing⟩,
        fun hlog => hfailing (hlog.mono (List.subset_append_left _ _))⟩

theorem isTaken_nil_iff (name : String) :
    isTaken [] name = true ↔ Text.lowerCase name ∈ ([] : List String) := by
  simp [isTaken]

theorem survey_found
    (hrun : (survey identity repo start [] tags).Runs anyhow () log (.ok (rows, none)) ())
    (htold : log.ToldBy facts) :
    List.Forall₂ (ComesTo facts identity repo log) (newcomers (fun tag => Text.lowerCase tag.name)
      (isMissing facts start repo) [] tags) rows := by
  obtain ⟨added, rfl, hadded⟩ := survey_comes isTaken_nil_iff hrun htold
  exact hadded

theorem ComesTo.names_eq (h : List.Forall₂ (ComesTo facts identity repo log) tags rows) :
    rows.map (·.tagName) = tags.map (·.name) := by
  induction h with
  | nil => rfl
  | cons hrow _ ih => rw [List.map_cons, List.map_cons, hrow.tagName_eq, ih]

end VersionSync
end ReleaseTracker
