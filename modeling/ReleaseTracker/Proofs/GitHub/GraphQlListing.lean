import ReleaseTracker.Proofs.GitHub.Listings

/-! Listings by query. What is read of a response is read once its fields are sorted, and sorting
keeps what its objects hold. -/

namespace ReleaseTracker.GitHub.GraphQl
open Json Program

variable {α : Type} {server : Server} {root name : String} {v : Json}

/-! Responses -/

def Responds (root name : String) (listing : Json → Prop) (v : Json) : Prop :=
  v.isReadable = true ∧ ∃ data found listed, v.Holds [("errors", none), ("data", some data)] ∧
    data.Holds [(root, some found)] ∧ found.Holds [(name, some listed)] ∧ listing listed

theorem connection_of_responds {listing : Json → Prop} {read : Json → Option α} {good : α → Prop}
    (h : Responds root name listing v)
    (hread : ∀ w, listing w → ∃ a, read w.canonical = some a ∧ good a) (resource : String) :
    ∃ a, connection resource root name read v.canonical = .ok a ∧ good a := by
  obtain ⟨-, data, found, listed, hv, hdata, hfound, hlisted⟩ := h
  obtain ⟨a, ha, hgood⟩ := hread listed hlisted
  have herrors : v.canonical.get? "errors" = none := get?_of_holds hv.canonical (by simp)
  have hd : v.canonical.get? "data" = some data.canonical :=
    get?_of_holds hv.canonical (by simp)
  have hroot : data.canonical.get? root = some found.canonical :=
    get?_of_holds hdata.canonical (by simp)
  have hname : found.canonical.get? name = some listed.canonical :=
    get?_of_holds hfound.canonical (by simp)
  have hthere : (some found.canonical).filter (!·.isNull) = some found.canonical := by
    simp [Option.filter, isNull_of_holds hfound.canonical]
  refine ⟨a, ?_, hgood⟩
  simp only [connection, reported, herrors, hd, hroot, hname, hthere, ha, Option.bind_none,
    Option.bind_some, Option.getD_none]

theorem ask_answered {listing : Json → Prop} {read : Json → Option α} {good : α → Prop}
    {query : Request} (h : (server query).Carries (Responds root name listing))
    (hread : ∀ w, listing w → ∃ a, read w.canonical = some a ∧ good a) (resource : String) :
    ∃ a, server.result (ask query resource root name read) = .ok (.ok a) ∧ good a := by
  have hconnection : ∀ v, Responds root name listing v → ∃ response, anyValue v = some response ∧
      ∃ a, connection resource root name read response = .ok a ∧ good a := fun v hv =>
    ⟨v.canonical, if_pos hv.1, connection_of_responds hv hread resource⟩
  obtain ⟨response, hok, a, ha, hgood⟩ := h.read hconnection resource
  refine ⟨a, (Server.result_ask _ _).trans ?_, hgood⟩
  rw [hok]
  exact congrArg Except.ok ha

/-! Stars -/

def starredRequest (username : String) (cursor : Option String) (perPage : Nat) : Request :=
  request starredQuery
    [("login", .str username), ("first", .int perPage), ("after", ofOption .str cursor)]

def ServesStarPage (server : Server) (username : String) (perPage : Nat) (cursor : Option String)
    (page : Page StarredRepo) : Prop :=
  (server (starredRequest username cursor perPage)).Carries
    (Responds "user" "starredRepositories" (PageOf form.Describes page))

def ServesStars (server : Server) (username : String) (perPage : Nat) (items : List StarredRepo) :
    Prop := Cut (ServesStarPage server username perPage) none items

theorem starredPage?_of_page {page : Page StarredRepo} (h : PageOf form.Describes page v) :
    starredPage? v = some page := by
  obtain ⟨info, nodes, ending, cursor, hholds, hinfo, hending, hcursor, hitems⟩ := h
  rw [starredPage?, columns_of_holds hholds rfl]
  simp [(nextCursor?_of_holds hinfo hending hcursor).2,
    hitems.read_eq fun _ _ => starredRepo?_of_describes]

theorem describes_canonical {item : StarredRepo} (h : form.Describes item v) :
    form.Describes item v.canonical :=
  h.canonical fun _ _ hnames => Holds.canonical hnames

theorem starredPage_answered {username : String} {cursor : Option String} {perPage : Nat}
    {page : Page StarredRepo} (h : ServesStarPage server username perPage cursor page)
    (budget : Nat) :
    server.call .graphql budget (.starredPage username cursor perPage) = .ok (.ok page) := by
  have hread : ∀ w, PageOf form.Describes page w →
      ∃ read, starredPage? w.canonical = some read ∧ page = read := fun w hw =>
    ⟨page, starredPage?_of_page (hw.canonical fun _ _ => describes_canonical), rfl⟩
  obtain ⟨_, hok, rfl⟩ := ask_answered h hread ("user " ++ username)
  exact hok

theorem ServesStars.walked {username : String} {perPage pages : Nat} {items : List StarredRepo}
    (h : ServesStars server username perPage items) (budget : Nat) (hpages : items.length < pages) :
    ∃ page, server.call .graphql budget (.starredPage username none perPage) = .ok (.ok page) ∧
      Walked (fun cursor => server.call .graphql budget (.starredPage username cursor perPage))
        pages page items :=
  Cut.walked h (fun _ _ hserved => starredPage_answered hserved budget) hpages

/-! Tags -/

def countRequest (owner name : String) : Request :=
  request tagCountQuery [("owner", .str owner), ("name", .str name)]

def tagsRequest (owner name : String) (cursor : Option String) : Request :=
  request tagsQuery [("owner", .str owner), ("name", .str name), ("after", ofOption .str cursor)]

def DescribesTag (ref : Ref) (v : Json) : Prop :=
  ∃ target kind, v.Holds [("name", some (.str ref.name)), ("target", some target)] ∧
    target.Holds [("__typename", some (.str kind)), ("oid", some (.str ref.sha))] ∧
    Text.lowerAscii kind.toList = Text.lowerAscii ref.kind.toList

def IsCount (refs : List Ref) (v : Json) : Prop :=
  ∃ n : Nat, Word.isNatural64 n = true ∧ (0 < n ↔ refs ≠ []) ∧
    v.Holds [("pageInfo", none), ("nodes", none), ("totalCount", some (.int n))]

def TagPageOf (page : Page Ref) (v : Json) : Prop :=
  PageOf DescribesTag page v ∧ v.Holds [("totalCount", none)]

def ServesTagPage (server : Server) (owner name : String) (cursor : Option String)
    (page : Page Ref) : Prop :=
  (server (tagsRequest owner name cursor)).Carries (Responds "repository" "refs" (TagPageOf page))

structure ServesTags (server : Server) (owner name : String) (refs : List Ref) : Prop where
  count : (server (countRequest owner name)).Carries
    (Responds "repository" "refs" (IsCount refs))
  pages : Cut (ServesTagPage server owner name) none refs

theorem describesTag_canonical {ref : Ref} (h : DescribesTag ref v) :
    DescribesTag ref v.canonical := by
  obtain ⟨target, kind, hholds, htarget, hkind⟩ := h
  exact ⟨_, kind, hholds.canonical, htarget.canonical, hkind⟩

theorem tag?_of_describes {ref : Ref} (h : DescribesTag ref v) :
    ∃ tag, tag? v = some tag ∧ tag.plain = ref.tag.plain := by
  obtain ⟨target, kind, hholds, htarget, hkind⟩ := h
  have hcolumns : target.columns [field "__typename", field "oid"] =
      some [some (.str kind), some (.str ref.sha)] := columns_of_holds htarget rfl
  refine ⟨⟨ref.name, ref.sha, ObjectKind.ofName kind⟩, ?_, ?_⟩
  · rw [tag?, columns_of_holds hholds rfl]
    simp [hcolumns, str?]
  · simp [Tag.plain, Ref.tag, ObjectKind.known_ofName hkind]

theorem tagPage?_of_page {page : Page Ref} (h : TagPageOf page v) :
    ∃ read, tagPage? v = some read ∧ read.page.next = page.next ∧
      read.page.items.map Tag.plain = page.items.map (Tag.plain ∘ Ref.tag) := by
  obtain ⟨⟨info, nodes, ending, cursor, hholds, hinfo, hending, hcursor, hitems⟩, htotal⟩ := h
  obtain ⟨tags, htags, hsame⟩ := hitems.read (f := Tag.plain ∘ Ref.tag) (g := Tag.plain)
    fun ref w hw => tag?_of_describes hw
  obtain ⟨hnull, hnext⟩ := nextCursor?_of_holds hinfo hending hcursor
  refine ⟨⟨⟨tags, page.next⟩, none⟩, ?_, rfl, hsame⟩
  rw [tagPage?, columns_of_holds (hholds.append htotal) rfl]
  simp [Json.optional, withDefault, hnull, hnext, htags]

theorem tagPage?_of_count {refs : List Ref} (h : IsCount refs v) :
    ∃ read, tagPage? v = some read ∧ (0 < read.total.getD 0 ↔ refs ≠ []) := by
  obtain ⟨n, hfits, hcount, hholds⟩ := h
  refine ⟨⟨⟨[], none⟩, some n⟩, ?_, hcount⟩
  rw [tagPage?, columns_of_holds hholds rfl]
  simp [Json.optional, withDefault, isNull, nat64?_natCast hfits]

theorem isCount_canonical {refs : List Ref} (h : IsCount refs v) : IsCount refs v.canonical := by
  obtain ⟨n, hfits, hcount, hholds⟩ := h
  exact ⟨n, hfits, hcount, hholds.canonical⟩

theorem TagPageOf.canonical {page : Page Ref} (h : TagPageOf page v) :
    TagPageOf page v.canonical :=
  ⟨h.1.canonical fun _ _ => describesTag_canonical, h.2.canonical⟩

variable {fullName owner : String} {refs : List Ref}

theorem ServesTags.hasTags_answered (h : ServesTags server owner name refs) (budget : Nat)
    (hname : Route.ownerAndName fullName = .ok (owner, name)) :
    server.call .graphql budget (.hasTags fullName) = .ok (.ok !refs.isEmpty) := by
  obtain ⟨read, hok, hcount⟩ := ask_answered h.count
    (fun w hw => tagPage?_of_count (isCount_canonical hw)) fullName
  have hsome : decide (0 < read.total.getD 0) = !refs.isEmpty := by
    rw [Bool.eq_iff_iff, decide_eq_true_iff, hcount]
    simp
  show server.result (hasTags fullName) = _
  unfold hasTags
  rw [hname]
  refine (Server.result_bind_of_ok hok _).trans ?_
  exact congrArg (fun some => Except.ok (Except.ok some)) hsome

theorem tagPage_answered {cursor : Option String} {page : Page Ref}
    (h : ServesTagPage server owner name cursor page) (fullName : String) :
    ∃ tags total, server.result (ask (tagsRequest owner name cursor) fullName "repository" "refs"
        tagPage?) = .ok (.ok ⟨⟨tags, page.next⟩, total⟩) ∧
      tags.map Tag.plain = page.items.map (Tag.plain ∘ Ref.tag) := by
  obtain ⟨⟨⟨tags, next⟩, total⟩, hok, hnext, hsame⟩ := ask_answered h
    (fun w hw => tagPage?_of_page hw.canonical) fullName
  have hnext : next = page.next := hnext
  subst hnext
  exact ⟨tags, total, hok, hsame⟩

theorem tagsFrom_answered {budget : Nat} {cursor : Option String}
    (h : Cut (ServesTagPage server owner name) cursor refs)
    (hbudget : refs.length < budget) (fullName : String) :
    ∃ tags, server.result (tagsFrom fullName owner name budget cursor) = .ok (.ok tags) ∧
      tags.map Tag.plain = refs.map (Tag.plain ∘ Ref.tag) := by
  induction h generalizing budget with
  | last hserved =>
    cases budget with
    | zero => exact absurd hbudget (Nat.not_lt_zero _)
    | succ budget =>
      obtain ⟨tags, total, hok, hsame⟩ := tagPage_answered hserved fullName
      exact ⟨tags, Server.result_bind_of_ok hok _, hsame⟩
  | more hserved hitems _ ih =>
    cases budget with
    | zero => exact absurd hbudget (Nat.not_lt_zero _)
    | succ budget =>
      obtain ⟨tags, total, hok, hsame⟩ := tagPage_answered hserved fullName
      obtain ⟨more, hmore, hsame'⟩ := ih (length_rest_lt hitems hbudget)
      refine ⟨tags ++ more, ?_, ?_⟩
      · refine (Server.result_bind_of_ok hok _).trans ?_
        exact Server.result_bind_of_ok hmore _
      · rw [List.map_append, List.map_append, hsame, hsame']

theorem ServesTags.allTags_answered {budget : Nat} (h : ServesTags server owner name refs)
    (hname : Route.ownerAndName fullName = .ok (owner, name)) (hbudget : refs.length < budget) :
    ∃ tags, server.call .graphql budget (.allTags fullName) = .ok (.ok tags) ∧
      tags.map Tag.plain = refs.map (Tag.plain ∘ Ref.tag) := by
  show ∃ tags, server.result (allTags budget fullName) = _ ∧ _
  unfold allTags
  rw [hname]
  exact tagsFrom_answered h.pages hbudget fullName

end ReleaseTracker.GitHub.GraphQl
