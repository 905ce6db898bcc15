import ReleaseTracker.Proofs.GitHub.Servers

/-! Listings of the same items by either interface. By page number the pages are of one size, and an
empty one comes after them. By query they may be cut anywhere, and each but the last names the
cursor of the next. A walk over either sees the same items (`Walked`). -/

namespace ReleaseTracker.GitHub
open Json Program

/-! Repositories -/

structure RepoForm where
  id : String
  fullName : String
  homepage : String
  language : String
  avatar : String
  names : String → Json → Prop

def RepoForm.Owner (form : RepoForm) (avatar? : Option String) (v : Json) : Prop :=
  ∃ avatar, v.Holds [(form.avatar, avatar)] ∧ Perhaps IsText avatar? avatar

inductive RepoForm.Describes (form : RepoForm) (item : StarredRepo) (v : Json) : Prop
  | intro {description homepage language owner : Option Json} {page : Option String}
    {avatar : Option (Option String)} (idFits : Word.isInteger64 item.id = true)
    (holds : v.Holds [(form.id, some (.int item.id)), (form.fullName, some (.str item.fullName)),
      ("name", some (.str item.name)), ("description", description), (form.homepage, homepage),
      (form.language, language), ("owner", owner)])
    (description_eq : Perhaps IsText item.description description)
    (page_eq : Perhaps IsText page homepage) (homepage_eq : page.filter (· ≠ "") = item.homepage)
    (language_eq : Perhaps form.names item.language language)
    (owner_eq : Perhaps form.Owner avatar owner) (avatar_eq : avatar.join = item.ownerAvatarUrl)

def Rest.form : RepoForm :=
  ⟨"id", "full_name", "homepage", "language", "avatar_url", IsText⟩

def GraphQl.form : RepoForm :=
  ⟨"databaseId", "nameWithOwner", "homepageUrl", "primaryLanguage", "avatarUrl",
    fun name v => v.Holds [("name", some (.str name))]⟩

namespace RepoForm
variable {form : RepoForm} {item : StarredRepo} {v : Json}

theorem Owner.canonical {avatar? : Option String} (h : form.Owner avatar? v) :
    form.Owner avatar? v.canonical := by
  obtain ⟨avatar, hholds, havatar⟩ := h
  exact ⟨_, hholds.canonical, havatar.canonical_text⟩

theorem Describes.canonical (h : form.Describes item v)
    (hnames : ∀ name w, form.names name w → form.names name w.canonical) :
    form.Describes item v.canonical := by
  obtain ⟨hid, hholds, hdescription, hlinks, hpage, hlanguage, howner, havatar⟩ := h
  exact .intro hid hholds.canonical hdescription.canonical_text hlinks.canonical_text hpage
    (hlanguage.canonical hnames) (howner.canonical fun _ _ => Owner.canonical) havatar

end RepoForm

theorem Rest.avatar?_of_owner {avatar? : Option String} {v : Json}
    (h : Rest.form.Owner avatar? v) : v.isNull = false ∧ Rest.avatar? v = some avatar? := by
  obtain ⟨avatar, hholds, havatar⟩ := h
  refine ⟨isNull_of_holds hholds, ?_⟩
  rw [Rest.avatar?, columns_of_holds hholds rfl]
  exact havatar.read_text

theorem Rest.starredRepo?_of_describes {item : StarredRepo} {v : Json}
    (h : Rest.form.Describes item v) : Rest.starredRepo? v = some item := by
  rcases h with @⟨_, _, _, _, page, avatar, hid, hholds, hdescription, hlinks, hpage, hlanguage,
    howner, havatar⟩
  have hhomepage : Rest.homepage page = item.homepage := hpage
  have howner := howner.read fun _ _ => avatar?_of_owner
  rw [Rest.starredRepo?, columns_of_holds hholds rfl]
  simp [str?, int64?_int hid, hdescription.read_text, hlinks.read_text, hlanguage.read_text, howner,
    hhomepage, havatar]

theorem GraphQl.avatar?_of_owner {avatar? : Option String} {v : Json}
    (h : GraphQl.form.Owner avatar? v) : v.isNull = false ∧ GraphQl.avatar? v = some avatar? := by
  obtain ⟨avatar, hholds, havatar⟩ := h
  refine ⟨isNull_of_holds hholds, ?_⟩
  rw [GraphQl.avatar?, columns_of_holds hholds rfl]
  exact havatar.read_text

theorem GraphQl.language?_of_names {name : String} {v : Json} (h : GraphQl.form.names name v) :
    v.isNull = false ∧ GraphQl.language? v = some name := by
  have hholds : v.Holds [("name", some (.str name))] := h
  refine ⟨isNull_of_holds hholds, ?_⟩
  rw [GraphQl.language?, columns_of_holds hholds rfl]
  rfl

theorem GraphQl.starredRepo?_of_describes {item : StarredRepo} {v : Json}
    (h : GraphQl.form.Describes item v) : GraphQl.starredRepo? v = some item := by
  rcases h with @⟨_, _, _, _, page, avatar, hid, hholds, hdescription, hlinks, hpage, hlanguage,
    howner, havatar⟩
  have hlanguage := hlanguage.read fun _ _ => language?_of_names
  have howner := howner.read fun _ _ => avatar?_of_owner
  rw [GraphQl.starredRepo?, columns_of_holds hholds rfl]
  simp only [ne_eq, decide_not] at hpage
  simp [str?, int64?_int hid, hdescription.read_text, hlinks.read_text, hlanguage, howner, hpage,
    havatar]

/-! Tags -/

structure Ref where
  name : String
  sha : String
  kind : String
deriving DecidableEq, Repr

def Ref.tag (ref : Ref) : Tag := ⟨ref.name, ref.sha, ObjectKind.ofName ref.kind⟩

def ObjectKind.known : ObjectKind → ObjectKind
  | .other _ => .other ""
  | kind => kind

def Tag.plain (tag : Tag) : Tag := { tag with kind := tag.kind.known }

theorem ObjectKind.known_ofName {a b : String}
    (h : Text.lowerAscii a.toList = Text.lowerAscii b.toList) :
    (ObjectKind.ofName a).known = (ObjectKind.ofName b).known := by
  unfold ofName
  rw [h]
  dsimp only
  split_ifs <;> rfl

/-! Walks -/

section Walks
variable {α : Type}

theorem Page.isLast_eq_false {page : Page α} (hitems : page.items ≠ [])
    (hnext : page.next.isSome = true) : page.isLast = false := by
  rw [Page.isLast, List.isEmpty_eq_false_iff.mpr hitems, Option.isNone_eq_false_iff.mpr hnext]
  rfl

/-- A walk from a page on, over the answers to cursors, sees these items and then ends. It takes no
more pages than its budget. -/
inductive Walked (answers : Option String → Except Fault (Except ApiError (Page α))) :
    (budget : Nat) → Page α → List α → Prop
  | last {budget : Nat} {page : Page α} (isLast : page.isLast = true) :
      Walked answers (budget + 1) page page.items
  | more {budget : Nat} {page next : Page α} {rest : List α} (goesOn : page.isLast = false)
      (answered : answers page.next = .ok (.ok next)) (walked : Walked answers budget next rest) :
      Walked answers (budget + 1) page (page.items ++ rest)

inductive Cut (serves : Option String → Page α → Prop) : Option String → List α → Prop
  | last {cursor : Option String} {items : List α} (served : serves cursor ⟨items, none⟩) :
      Cut serves cursor items
  | more {cursor : Option String} {next : String} {items rest : List α}
      (served : serves cursor ⟨items, some next⟩) (nonempty : items ≠ [])
      (cut : Cut serves (some next) rest) : Cut serves cursor (items ++ rest)

theorem length_rest_lt {items rest : List α} {budget : Nat} (hitems : items ≠ [])
    (h : (items ++ rest).length < budget + 1) : rest.length < budget := by
  have hlength := List.length_pos_of_ne_nil hitems
  rw [List.length_append] at h
  omega

theorem Cut.walked {serves : Option String → Page α → Prop} {cursor : Option String}
    {items : List α} {answers : Option String → Except Fault (Except ApiError (Page α))}
    {budget : Nat} (h : Cut serves cursor items)
    (hserves : ∀ cursor page, serves cursor page → answers cursor = .ok (.ok page))
    (hbudget : items.length < budget) :
    ∃ page, answers cursor = .ok (.ok page) ∧ Walked answers budget page items := by
  -- no page but the last is empty, so there are no more pages before it than items
  induction h generalizing budget with
  | last hserved =>
    cases budget with
    | zero => exact absurd hbudget (Nat.not_lt_zero _)
    | succ budget => exact ⟨_, hserves _ _ hserved, .last (by simp [Page.isLast])⟩
  | more hserved hitems _ ih =>
    cases budget with
    | zero => exact absurd hbudget (Nat.not_lt_zero _)
    | succ budget =>
      obtain ⟨next, hnext, hwalked⟩ := ih (length_rest_lt hitems hbudget)
      exact ⟨_, hserves _ _ hserved, .more (Page.isLast_eq_false hitems rfl) hnext hwalked⟩

def PageOf (describes : α → Json → Prop) (page : Page α) (v : Json) : Prop :=
  ∃ info nodes ending cursor, v.Holds [("pageInfo", some info), ("nodes", some nodes)] ∧
    info.Holds [("hasNextPage", some (.bool page.next.isSome)), ("endCursor", ending)] ∧
    Perhaps IsText cursor ending ∧ (page.next.isSome → cursor = page.next) ∧
    Lists describes page.items nodes

theorem PageOf.canonical {describes : α → Json → Prop} {page : Page α} {v : Json}
    (h : PageOf describes page v) (hdescribes : ∀ a v, describes a v → describes a v.canonical) :
    PageOf describes page v.canonical := by
  obtain ⟨info, nodes, ending, cursor, hholds, hinfo, hending, hcursor, hitems⟩ := h
  exact ⟨_, _, _, cursor, hholds.canonical, hinfo.canonical, hending.canonical_text, hcursor,
    hitems.canonical hdescribes⟩

theorem GraphQl.nextCursor?_of_holds {info : Json} {ending : Option Json}
    {cursor next : Option String}
    (h : info.Holds [("hasNextPage", some (.bool next.isSome)), ("endCursor", ending)])
    (hending : Perhaps IsText cursor ending) (hcursor : next.isSome → cursor = next) :
    info.isNull = false ∧ GraphQl.nextCursor? info = some next := by
  refine ⟨isNull_of_holds h, ?_⟩
  rw [GraphQl.nextCursor?, columns_of_holds h rfl]
  cases next with
  | none => simp [bool?, hending.read_text]
  | some next => simp [bool?, hending.read_text, hcursor rfl]

end Walks

end ReleaseTracker.GitHub
