import Mathlib.Data.List.Forall2
import ReleaseTracker.Proofs.Sync.Inquiry
import ReleaseTracker.Proofs.Sync.VersionPass

/-! What a pass finds, apart from how it is stored: the rows it gathers and where it stops. This
depends on the versions from before the pass and on what GitHub tells, so two surveys that are told
the same find the same rows, apart from the dates that they read from the clock. -/

namespace ReleaseTracker
open GitHub (ApiCall Tag Release)
open Program

def GitHub.ApiCall.stopReason : ApiCall → StopReason
  | .renderMarkdown _ _ => .renderingFailure
  | _ => .remoteFailure

/-- The clock showed one time in one log, and the other in the other. -/
def Log.Showed (log log' : Log) (now now' : Instant) : Prop :=
  ⟨.clock, now⟩ ∈ log ∧ ⟨.clock, now'⟩ ∈ log'

theorem Log.showed_mono {first first' log log' : Log} (h : first ⊆ log) (h' : first' ⊆ log') :
    first.Showed first' ≤ log.Showed log' :=
  fun _ _ => And.imp (@h _) (@h' _)

/-- The same row, or the same apart from times of the clock as the dates. -/
def SameRow (near : Instant → Instant → Prop) (row row' : Version) : Prop :=
  row = row' ∨ ∃ now now', near now now' ∧ row.createdAt = .utc now ∧
    row' = { row with createdAt := .utc now' }

theorem SameRow.tagName_eq {near : Instant → Instant → Prop} {row row' : Version}
    (h : SameRow near row row') : row.tagName = row'.tagName := by
  rcases h with rfl | ⟨_, _, _, _, rfl⟩ <;> rfl

theorem SameRow.repoId_eq {near : Instant → Instant → Prop} {row row' : Version}
    (h : SameRow near row row') : row.repoId = row'.repoId := by
  rcases h with rfl | ⟨_, _, _, _, rfl⟩ <;> rfl

theorem SameRow.hasVersion_eq {near : Instant → Instant → Prop} {rows rows' : List Version}
    (h : List.Forall₂ (SameRow near) rows rows') (t : Tables) (repoId : Int) (name : String) :
    ({ t with versions := t.versions ++ rows } : Tables).hasVersion repoId name =
      ({ t with versions := t.versions ++ rows' } : Tables).hasVersion repoId name := by
  unfold Tables.hasVersion
  rw [List.any_append, List.any_append]
  congr 1
  induction h with
  | nil => rfl
  | cons hrow _ ih => simp only [List.any_cons, hrow.repoId_eq, hrow.tagName_eq, ih]

theorem SameRow.mono {near near' : Instant → Instant → Prop} {row row' : Version}
    (h : SameRow near row row') (hnear : near ≤ near') : SameRow near' row row' :=
  h.imp id fun ⟨now, now', hnow, heq⟩ => ⟨now, now', hnear now now' hnow, heq⟩

namespace VersionSync
variable {identity : Identity} {repo : Repo} {fullName : String} {tag : Tag}
  {near : Instant → Instant → Prop}

/-! One tag -/

def SameDescription (near : Instant → Instant → Prop) (description description' : Description) :
    Prop :=
  description = description' ∨
    ∃ now', near description.date now' ∧ description' = { description with date := now' }

inductive SameAnswer {ε α : Type} (same : α → α → Prop) :
    Except ε (Option α) → Except ε (Option α) → Prop
  | failed (e : ε) : SameAnswer same (.error e) (.error e)
  | nothing : SameAnswer same (.ok none) (.ok none)
  | found {a b : α} (hsame : same a b) : SameAnswer same (.ok (some a)) (.ok (some b))

theorem describeObject_inquiry : (describeObject identity fullName tag).Inquiry
    (fun call => call.isListing = false)
    (fun call answer => (∃ e, answer = .error e) ∧ call.stopReason = .remoteFailure)
    (fun answer => ∃ found, answer = .ok found) := by
  unfold describeObject
  cases tag.kind with
  | tag | commit =>
    exact .github rfl (fun e => ⟨_, rfl, ⟨e, rfl⟩, rfl⟩) fun object => .done ⟨_, rfl⟩
  | blob =>
    refine .github rfl (fun e => ⟨_, rfl, ⟨e, rfl⟩, rfl⟩) fun blob => ?_
    exact .clock fun now => .done ⟨_, rfl⟩
  | other name => exact .done ⟨none, rfl⟩

theorem ofRelease_inquiry {release : Release} {asks : ApiCall → Prop} :
    (ofRelease tag release).Inquiry asks (fun _ _ => False) fun _ => True := by
  unfold ofRelease releaseDate
  cases release.publishedAt.or release.createdAt with
  | some date => exact .done trivial
  | none => exact .clock fun now => .done trivial

theorem describe_inquiry : (describe identity fullName tag).Inquiry
    (fun call => call.isListing = false)
    (fun call answer => (∃ e, answer = .error e) ∧ call.stopReason = .remoteFailure)
    (fun answer => ∃ found, answer = .ok found) := by
  refine .github rfl (fun e => ⟨_, rfl, ⟨e, rfl⟩, rfl⟩) fun found => ?_
  cases found with
  | none => exact describeObject_inquiry
  | some release =>
    exact ofRelease_inquiry.bind (fun _ _ => False.elim) fun _ _ => .done ⟨_, rfl⟩

theorem render_inquiry {message : String} : (render identity fullName message).Inquiry
    (fun call => call.isListing = false)
    (fun call answer => (∃ e, answer = .error e) ∧ call.stopReason = .renderingFailure)
    (fun answer => ∃ body, answer = .ok body) := by
  unfold render
  split
  · exact .done ⟨_, rfl⟩
  · exact .github rfl (fun e => ⟨_, rfl, ⟨e, rfl⟩, rfl⟩) fun body => .done ⟨_, rfl⟩

theorem examine_inquiry : (examine identity repo tag).Inquiry (fun call => call.isListing = false)
    (fun call answer => answer = .error call.stopReason)
    (fun answer => ∃ found, answer = .ok found ∧
      ∀ row ∈ found, row.repoId = repo.id ∧ row.tagName = tag.name) := by
  refine describe_inquiry.bind ?_ ?_
  · rintro call _ ⟨⟨e, rfl⟩, hreason⟩
    exact ⟨_, rfl, by rw [hreason]⟩
  rintro _ ⟨found, rfl⟩
  cases found with
  | none => exact .done ⟨none, rfl, by simp⟩
  | some description =>
    refine render_inquiry.bind ?_ ?_
    · rintro call _ ⟨⟨e, rfl⟩, hreason⟩
      exact ⟨_, rfl, by rw [hreason]⟩
    · rintro _ ⟨body, rfl⟩
      refine .done ⟨_, rfl, fun row hrow => ?_⟩
      obtain rfl := Option.some.inj hrow
      exact ⟨rfl, rfl⟩

theorem describeObject_twins :
    Work.Twins near (SameAnswer (SameDescription near)) (describeObject identity fullName tag)
      (describeObject identity fullName tag) := by
  unfold describeObject
  cases tag.kind with
  | tag | commit =>
    refine .github fun object => .done ?_
    cases object with
    | error e => exact .failed e
    | ok object => exact .found (.inl rfl)
  | blob =>
    refine .github fun object => ?_
    cases object with
    | error e => exact .done (.failed e)
    | ok blob => exact .clock fun now now' hnow => .done (.found (.inr ⟨now', hnow, rfl⟩))
  | other name => exact .done .nothing

theorem describe_twins :
    Work.Twins near (SameAnswer (SameDescription near)) (describe identity fullName tag)
      (describe identity fullName tag) := by
  refine .github fun found => ?_
  match found with
  | .error e => exact .done (.failed e)
  | .ok none => exact describeObject_twins
  | .ok (some release) =>
    dsimp only
    unfold ofRelease releaseDate
    cases release.publishedAt.or release.createdAt with
    | some date => exact .done (.found (.inl rfl))
    | none => exact .clock fun now now' hnow => .done (.found (.inr ⟨now', hnow, rfl⟩))

theorem render_twins {message : String} : Work.Twins near Eq (render identity fullName message)
    (render identity fullName message) := by
  unfold render
  split
  · exact .done rfl
  · exact .github fun _ => .done rfl

theorem examine_twins : Work.Twins near (SameAnswer (SameRow near)) (examine identity repo tag)
    (examine identity repo tag) := by
  refine describe_twins.bind fun answer answer' hanswer => ?_
  cases hanswer with
  | failed e => exact .done (.failed _)
  | nothing => exact .done .nothing
  | @found description description' hsame =>
    have hmessage : description'.message = description.message := by
      rcases hsame with rfl | ⟨now', -, rfl⟩ <;> rfl
    dsimp only
    rw [hmessage]
    refine render_twins.bind ?_
    rintro body _ rfl
    cases body with
    | error e => exact .done (.failed _)
    | ok body =>
      refine .done (.found ?_)
      rcases hsame with rfl | ⟨now', hnow, rfl⟩
      · exact .inl rfl
      · exact .inr ⟨_, now', hnow, rfl, rfl⟩

/-! All tags -/

def isTaken (rows : List Version) (name : String) : Bool :=
  rows.any fun row => Text.lowerCase row.tagName == Text.lowerCase name

theorem isTaken_append_singleton (rows : List Version) (row : Version) (name : String) :
    isTaken (rows ++ [row]) name =
      (isTaken rows name || Text.lowerCase row.tagName == Text.lowerCase name) := by
  simp [isTaken]

/-- What one tag adds to the rows gathered so far, and whether the survey stops at it. -/
def surveyTag (identity : Identity) (repo : Repo) (start : Tables) (rows : List Version)
    (tag : Tag) : Work (List Version × Option StopReason) :=
  if start.hasVersion repo.id tag.name || isTaken rows tag.name then .done (rows, none)
  else
    (examine identity repo tag).bind fun
      | .error reason => .done (rows, some reason)
      | .ok found => .done (rows ++ found.toList, none)

def survey (identity : Identity) (repo : Repo) (start : Tables) :
    List Version → List Tag → Work (List Version × Option StopReason)
  | rows, [] => .done (rows, none)
  | rows, tag :: rest =>
    (surveyTag identity repo start rows tag).bind fun
      | (rows, none) => survey identity repo start rows rest
      | (rows, some reason) => .done (rows, some reason)

variable {start : Tables} {rows rows' : List Version} {tags : List Tag}

theorem surveyTag_inquiry : (surveyTag identity repo start rows tag).Inquiry
    (fun call => call.isListing = false) (fun call finds => finds = (rows, some call.stopReason))
    (fun finds => finds.2 = none) := by
  unfold surveyTag
  split_ifs
  · exact .done rfl
  · refine examine_inquiry.bind ?_ ?_
    · rintro call _ rfl
      exact ⟨_, rfl, rfl⟩
    · rintro _ ⟨found, rfl, -⟩
      exact .done rfl

theorem survey_inquiry : (survey identity repo start rows tags).Inquiry
    (fun call => call.isListing = false) (fun call finds => finds.2 = some call.stopReason)
    (fun finds => finds.2 = none) := by
  induction tags generalizing rows with
  | nil => exact .done rfl
  | cons tag rest ih =>
    refine surveyTag_inquiry.bind ?_ ?_
    · rintro call _ rfl
      exact ⟨_, rfl, rfl⟩
    · rintro ⟨rows', _⟩ rfl
      exact ih

theorem survey_append (first rest : List Tag) : survey identity repo start rows (first ++ rest) =
      (survey identity repo start rows first).bind fun
        | (rows, none) => survey identity repo start rows rest
        | (rows, some reason) => .done (rows, some reason) := by
  induction first generalizing rows with
  | nil => rfl
  | cons tag first ih =>
    rw [List.cons_append, survey, survey, bind_assoc]
    congr 1
    funext (rows, reason?)
    cases reason? with
    | none => exact ih
    | some reason => rfl

theorem survey_extends {log : Log} {finds : List Version × Option StopReason}
    (hrun : (survey identity repo start rows tags).Runs anyhow () log (.ok finds) ()) :
    rows <+: finds.1 := by
  induction tags generalizing rows log with
  | nil =>
    obtain ⟨-, hfinds, -⟩ := runs_done_iff.mp hrun
    cases hfinds
    exact List.prefix_refl rows
  | cons tag rest ih =>
    obtain ⟨e, -, he⟩ | ⟨⟨rows₁, reason?⟩, ⟨⟩, first, last, htag, hrest, -⟩ :=
      runs_bind_iff.mp hrun
    · cases he
    have hfirst : rows <+: rows₁ := by
      unfold surveyTag at htag
      split_ifs at htag
      · cases (runs_done_iff.mp htag).2.1
        exact List.prefix_refl rows
      obtain ⟨e, -, he⟩ | ⟨answer, _, _, _, -, hdone, -⟩ := runs_bind_iff.mp htag
      · cases he
      cases answer with
      | error reason =>
        cases (runs_done_iff.mp hdone).2.1
        exact List.prefix_refl rows
      | ok row? =>
        cases (runs_done_iff.mp hdone).2.1
        exact List.prefix_append rows row?.toList
    cases reason? with
    | none => exact hfirst.trans (ih hrest)
    | some reason =>
      cases (runs_done_iff.mp hrest).2.1
      exact hfirst

/-- The same rows, apart from dates read from the clock, and the same reason to stop. -/
def SameFinds (near : Instant → Instant → Prop)
    (finds finds' : List Version × Option StopReason) : Prop :=
  List.Forall₂ (SameRow near) finds.1 finds'.1 ∧ finds.2 = finds'.2

theorem isTaken_congr (h : List.Forall₂ (SameRow near) rows rows') (name : String) :
    isTaken rows name = isTaken rows' name := by
  induction h with
  | nil => rfl
  | cons hrow _ ih =>
    simp only [isTaken, List.any_cons, hrow.tagName_eq] at ih ⊢
    rw [ih]

theorem surveyTag_twins (h : List.Forall₂ (SameRow near) rows rows') :
    Work.Twins near (SameFinds near) (surveyTag identity repo start rows tag)
      (surveyTag identity repo start rows' tag) := by
  unfold surveyTag
  rw [isTaken_congr h]
  split_ifs
  · exact .done ⟨h, rfl⟩
  refine examine_twins.bind fun answer answer' hanswer => ?_
  cases hanswer with
  | failed e => exact .done ⟨h, rfl⟩
  | nothing => exact .done ⟨by simpa using h, rfl⟩
  | found hsame => exact .done ⟨List.rel_append h (.cons hsame .nil), rfl⟩

theorem survey_twins (h : List.Forall₂ (SameRow near) rows rows') :
    Work.Twins near (SameFinds near) (survey identity repo start rows tags)
      (survey identity repo start rows' tags) := by
  induction tags generalizing rows rows' with
  | nil => exact .done ⟨h, rfl⟩
  | cons tag rest ih =>
    refine (surveyTag_twins h).bind ?_
    rintro ⟨rows, stop⟩ ⟨rows', stop'⟩ ⟨hrows, rfl⟩
    cases stop with
    | none => exact ih hrows
    | some reason => exact .done ⟨hrows, rfl⟩

theorem survey_alike {log log' : Log} {replies : GitHub.Replies}
    {earlier : List (Identity × ApiCall)} {stop stop' : Option StopReason}
    (hrun : (survey identity repo start [] tags).Runs anyhow () log (.ok (rows, stop)) ())
    (hrun' : (survey identity repo start [] tags).Runs anyhow () log' (.ok (rows', stop')) ())
    (hreplied : log.RepliedBy replies earlier) (hreplied' : log'.RepliedBy replies earlier) :
    log.requests = log'.requests ∧ List.Forall₂ (SameRow (log.Showed log')) rows rows' ∧
      stop = stop' := by
  have htwins : Work.Twins (log.Showed log') (SameFinds (log.Showed log'))
    (survey identity repo start [] tags) (survey identity repo start [] tags) := survey_twins .nil
  obtain ⟨hrequests, _, _, hfinds, hfinds', hsame⟩ :=
    htwins.runs hrun hrun' hreplied hreplied' fun _ _ => And.intro
  obtain rfl := Except.ok.inj hfinds
  obtain rfl := Except.ok.inj hfinds'
  exact ⟨hrequests, hsame⟩

end VersionSync
end ReleaseTracker
