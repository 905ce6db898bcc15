import ReleaseTracker.Proofs.GitHub.Listings

/-! Listings by page number. Page after page is asked for until one is empty, and all tags come at
once. -/

namespace ReleaseTracker

theorem Numeral.natural?_toString (n : Nat) : natural? (toString n).toList = some n := by
  have hdigits : (toString n).toList = Nat.toDigits 10 n := by
    rw [Nat.toString_eq_repr, Nat.toList_repr]
  have hall : (Nat.toDigits 10 n).all Char.isDigit = true := by
    rw [List.all_eq_true]
    intro c hc
    exact Nat.isDigit_of_mem_toDigits (by decide) le_rfl hc
  have hvalue : value (Nat.toDigits 10 n) = n :=
    calc
      value (Nat.toDigits 10 n) = Nat.ofDigitChars 10 (Nat.toDigits 10 n) 0 :=
        Nat.ofDigitChars_eq_foldl.symm
      _ = n := Nat.ofDigitChars_ten_toDigits
  rw [hdigits, natural?, if_pos ⟨Nat.toDigits_ne_nil, hall⟩, hvalue]

theorem Numeral.unsigned?_toString (n : Nat) : unsigned? (toString n).toList = some n := by
  have hnatural := natural?_toString n
  unfold unsigned?
  split
  · rename_i heq
    rw [heq] at hnatural
    simp [natural?] at hnatural
  · exact hnatural

namespace GitHub.Rest
open Json Program

theorem pageNumber_toString {n : Nat} (h : n < Word.size32) :
    pageNumber (some (toString n)) = n := by
  have hnumber := Numeral.unsigned?_toString n
  simp only [pageNumber, Option.getD_some, hnumber, Word.isNatural32, decide_eq_true h, if_true]

/-- A listing by page number. The pages have numbers of 32 bits, and so has the empty one after. -/
structure ServesStars (server : Server) (username : String) (perPage : Nat)
    (items : List StarredRepo) : Prop where
  few : items.length ≤ (Word.size32 - 2) * perPage
  page : ∀ k, k * perPage < items.length + perPage →
    (server ⟨.get, starredTarget username (k + 1) perPage, none⟩).Carries
      (Lists form.Describes ((items.drop (k * perPage)).take perPage))

variable {server : Server} {username : String} {perPage : Nat} {items : List StarredRepo}

def starPage (perPage : Nat) (items : List StarredRepo) (k : Nat) : Page StarredRepo :=
  ⟨(items.drop (k * perPage)).take perPage, some (toString (Word.next32 (k + 1)))⟩

theorem ServesStars.starredPage_answered (h : ServesStars server username perPage items)
    (budget : Nat) {cursor : Option String} {k : Nat} (hcursor : pageNumber cursor = k + 1)
    (hk : k * perPage < items.length + perPage) :
    server.call .rest budget (.starredPage username cursor perPage) =
      .ok (.ok (starPage perPage items k)) := by
  show server.result (starredPage username cursor perPage) = _
  unfold starredPage
  rw [hcursor]
  refine (server.result_get _ _).trans (congrArg _ ((h.page k hk).read_eq (fun v hv => ?_) _))
  rw [hv.read_eq fun _ _ => starredRepo?_of_describes]
  rfl

theorem starPage_append (perPage : Nat) (items : List StarredRepo) (k : Nat) :
    (starPage perPage items k).items ++ items.drop ((k + 1) * perPage) =
      items.drop (k * perPage) := by
  have hrest : items.drop ((k + 1) * perPage) = (items.drop (k * perPage)).drop perPage := by
    rw [List.drop_drop, Nat.succ_mul]
  rw [hrest]
  exact List.take_append_drop perPage (items.drop (k * perPage))

theorem starPage_ne_nil (hsize : 1 ≤ perPage) {k : Nat} (hmore : k * perPage < items.length) :
    (starPage perPage items k).items ≠ [] := by
  apply List.ne_nil_of_length_pos
  rw [starPage, List.length_take, List.length_drop]
  omega

theorem ServesStars.number_lt (h : ServesStars server username perPage items) {k : Nat}
    (hmore : k * perPage < items.length) : k + 2 < Word.size32 := by
  have hlt : k * perPage < (Word.size32 - 2) * perPage := hmore.trans_le h.few
  have hk : k < Word.size32 - 2 := Nat.lt_of_mul_lt_mul_right hlt
  omega

theorem ServesStars.starPage_walked (h : ServesStars server username perPage items)
    (hsize : 1 ≤ perPage) (budget : Nat) {pages k : Nat}
    (hpages : (items.drop (k * perPage)).length < pages) :
    Walked (fun cursor => server.call .rest budget (.starredPage username cursor perPage)) pages
      (starPage perPage items k) (items.drop (k * perPage)) := by
  -- each page that is not empty leaves fewer items for the pages after it
  induction pages generalizing k with
  | zero => exact absurd hpages (Nat.not_lt_zero _)
  | succ pages ih =>
    rw [List.length_drop] at hpages
    rcases Nat.lt_or_ge (k * perPage) items.length with hmore | hend
    · have hnext : (k + 1) * perPage < items.length + perPage := by
        rw [Nat.succ_mul]
        omega
      have hrest : (items.drop ((k + 1) * perPage)).length < pages := by
        rw [List.length_drop, Nat.succ_mul]
        omega
      have hnumber : pageNumber (starPage perPage items k).next = k + 2 := by
        have hfew := h.number_lt hmore
        rw [starPage, Word.next32_eq hfew]
        exact pageNumber_toString hfew
      have hanswered := h.starredPage_answered budget hnumber hnext
      rw [← starPage_append]
      exact .more (Page.isLast_eq_false (starPage_ne_nil hsize hmore) rfl) hanswered (ih hrest)
    · have hnone : items.drop (k * perPage) = [] := List.drop_eq_nil_iff.mpr hend
      have hpage : (starPage perPage items k).items = [] := by
        rw [starPage, hnone, List.take_nil]
      rw [hnone, ← hpage]
      exact .last (by rw [Page.isLast, hpage]; rfl)

theorem ServesStars.walked (h : ServesStars server username perPage items) (hsize : 1 ≤ perPage)
    (budget : Nat) {pages : Nat} (hpages : items.length < pages) :
    ∃ page, server.call .rest budget (.starredPage username none perPage) = .ok (.ok page) ∧
      Walked (fun cursor => server.call .rest budget (.starredPage username cursor perPage)) pages
        page items := by
  have hnumber : pageNumber none = 0 + 1 := rfl
  have hfirst := h.starredPage_answered budget hnumber (by omega)
  have hwalked := h.starPage_walked hsize budget (k := 0) (by simpa using hpages)
  rw [Nat.zero_mul, List.drop_zero] at hwalked
  exact ⟨_, hfirst, hwalked⟩

/-! Tags -/

def tagMarker : String := "refs/tags/"

def DescribesTag (ref : Ref) (v : Json) : Prop :=
  ∃ object, v.Holds [("ref", some (.str (tagMarker ++ ref.name))), ("object", some object)] ∧
    object.Holds [("sha", some (.str ref.sha)), ("type", some (.str ref.kind))]

structure ServesTags (server : Server) (owner name : String) (refs : List Ref) : Prop where
  probe : (server ⟨.get, Route.path ["repos", owner, name, "tags"] ++ "?per_page=1&page=1",
    none⟩).Carries fun v => ∃ tags, v = .arr tags ∧ allReadable tags = true ∧
      (tags = [] ↔ refs = [])
  all : (server ⟨.get, Route.path ["repos", owner, name, "git", "refs", "tags"], none⟩).Carries
    fun v => v.isReadable = true ∧
      (Lists DescribesTag refs v ∨ ∃ ref, refs = [ref] ∧ DescribesTag ref v)

theorem tagName_marked (name : String) : tagName (tagMarker ++ name) = name := by
  have hmarked : (tagMarker ++ name).toList = "refs/tags/".toList ++ name.toList :=
    String.toList_append
  simp only [tagName, hmarked]
  rw [if_pos (List.isPrefixOf_iff_prefix.mpr (List.prefix_append _ _)), List.drop_left,
    String.ofList_toList]

theorem reference?_of_describes {ref : Ref} {v : Json} (h : DescribesTag ref v) :
    reference? v = some ref.tag := by
  obtain ⟨object, hholds, hobject⟩ := h
  have hcolumns : object.columns [field "sha", field "type"] =
      some [some (.str ref.sha), some (.str ref.kind)] := columns_of_holds hobject rfl
  rw [reference?, columns_of_holds hholds rfl]
  simp [hcolumns, str?, tagName_marked, Ref.tag]

theorem references?_of_described {refs : List Ref} {v : Json} (hreadable : v.isReadable = true)
    (h : Lists DescribesTag refs v ∨ ∃ ref, refs = [ref] ∧ DescribesTag ref v) :
    references? v = some (refs.map Ref.tag) := by
  rw [references?, if_pos hreadable]
  rcases h with hlist | ⟨ref, rfl, href⟩
  · obtain ⟨tags, htags, hsame⟩ := hlist.read (f := Ref.tag) (g := id)
      fun ref v hv => ⟨_, reference?_of_describes hv, rfl⟩
    rw [htags, ← hsame, List.map_id]
    rfl
  · rw [reference?_of_describes href]
    obtain ⟨object, ⟨fields, rfl, -⟩, -⟩ := href
    rfl

theorem listOf_anyValue {tags : List Json} (h : allReadable tags = true) :
    listOf anyValue (.arr tags) = some (tags.map canonical) := by
  show tags.mapM anyValue = _
  induction tags with
  | nil => rfl
  | cons v rest ih =>
    obtain ⟨hv, hrest⟩ := Bool.and_eq_true_iff.mp h
    rw [List.mapM_cons, ih hrest, anyValue, if_pos hv]
    rfl

variable {fullName owner name : String} {refs : List Ref}

theorem ServesTags.hasTags_answered (h : ServesTags server owner name refs) (budget : Nat)
    (hname : Route.ownerAndName fullName = .ok (owner, name)) :
    server.call .rest budget (.hasTags fullName) = .ok (.ok !refs.isEmpty) := by
  show server.result (hasTags fullName) = _
  unfold hasTags
  rw [Server.result_getOfRepo, hname]
  refine congrArg Except.ok (h.probe.read_eq (fun v hv => ?_) _)
  obtain ⟨tags, rfl, hreadable, hnone⟩ := hv
  rw [listOf_anyValue hreadable]
  cases tags with
  | nil => simp [hnone.mp rfl]
  | cons first rest =>
    have hsome : refs ≠ [] := fun hrefs => List.cons_ne_nil _ _ (hnone.mpr hrefs)
    simp [hsome]

theorem ServesTags.allTags_answered (h : ServesTags server owner name refs) (budget : Nat)
    (hname : Route.ownerAndName fullName = .ok (owner, name)) :
    server.call .rest budget (.allTags fullName) = .ok (.ok (refs.map Ref.tag)) := by
  show server.result (allTags fullName) = _
  unfold allTags
  rw [Server.result_getOfRepo, hname]
  simp only [String.append_empty]
  exact congrArg Except.ok (h.all.read_eq (fun v hv => references?_of_described hv.1 hv.2) _)

end GitHub.Rest
end ReleaseTracker
