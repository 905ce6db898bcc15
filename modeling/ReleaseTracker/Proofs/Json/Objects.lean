import Mathlib.Data.List.Forall2
import Mathlib.Data.String.Basic
import ReleaseTracker.Catalog.Json

/-! Objects by the values under some of their names. Such an object may have any fields besides, and
its fields may come in any order (`Json.Holds`). Records are read by no more than this, and sorting
the fields keeps it. -/

namespace ReleaseTracker.Json
variable {α β γ : Type} {v : Json} {given : List (String × Option Json)}
  {fields : List (String × Json)}

def Holds (v : Json) (given : List (String × Option Json)) : Prop :=
  ∃ fields, v = .obj fields ∧ ∀ entry ∈ given,
    fields.filter (·.1 = entry.1) = (entry.2.map (entry.1, ·)).toList

@[simp] theorem holds_obj_iff : (obj fields).Holds given ↔ ∀ entry ∈ given,
    fields.filter (·.1 = entry.1) = (entry.2.map (entry.1, ·)).toList := by
  constructor
  · rintro ⟨_, ⟨⟩, h⟩
    exact h
  · exact fun h => ⟨fields, rfl, h⟩

/-! Reading -/

theorem single_of_filter {name : String} {w : Option Json}
    (h : fields.filter (·.1 = name) = (w.map (name, ·)).toList) : single name fields = some w := by
  unfold single
  rw [h]
  cases w <;> rfl

theorem columns_of_holds {declared : List Field} (h : v.Holds given)
    (hnames : declared.map (·.name) = given.map (·.1)) :
    v.columns declared = some (given.map (·.2)) := by
  obtain ⟨fields, rfl, hfields⟩ := h
  show declared.mapM (fun f => single f.name fields) = some (given.map (·.2))
  induction declared generalizing given with
  | nil =>
    obtain rfl : given = [] := List.map_eq_nil_iff.mp hnames.symm
    rfl
  | cons f rest ih =>
    cases given with
    | nil => cases hnames
    | cons entry more =>
      obtain ⟨hname, hrest⟩ := List.cons.inj hnames
      obtain ⟨hentry, hmore⟩ := List.forall_mem_cons.mp hfields
      have hname : f.name = entry.1 := hname
      have hsingle : single f.name fields = some entry.2 := by
        rw [hname]
        exact single_of_filter hentry
      rw [List.mapM_cons, hsingle, ih hrest hmore]
      rfl

theorem get?_of_holds {name : String} {w : Option Json} (h : v.Holds given)
    (hmem : (name, w) ∈ given) : v.get? name = w := by
  obtain ⟨fields, rfl, hfields⟩ := h
  have hfilter := hfields _ hmem
  show (fields.find? (·.1 = name)).map (·.2) = w
  rw [← List.head?_filter, hfilter]
  cases w <;> rfl

theorem isNull_of_holds (h : v.Holds given) : v.isNull = false := by
  obtain ⟨fields, rfl, -⟩ := h
  rfl

theorem Holds.append {given' : List (String × Option Json)} (h : v.Holds given)
    (h' : v.Holds given') : v.Holds (given ++ given') := by
  obtain ⟨fields, rfl, hfields⟩ := h
  obtain ⟨fields', hsame, hfields'⟩ := h'
  obtain rfl := Json.obj.inj hsame
  exact ⟨fields, rfl, List.forall_mem_append.mpr ⟨hfields, hfields'⟩⟩

@[simp] theorem required_some {read : Json → Option α} : required read (some v) = read v := rfl

theorem int64?_int {n : Int} (h : Word.isInteger64 n = true) : int64? (.int n) = some n := by
  simp [int64?, h]

theorem nat64?_natCast {n : Nat} (h : Word.isNatural64 n = true) : nat64? (.int n) = some n := by
  simp [nat64?, h]

/-! Parts that may be missing -/

inductive Perhaps (shows : α → Json → Prop) : Option α → Option Json → Prop
  | given {a : α} {v : Json} (shown : shows a v) : Perhaps shows (some a) (some v)
  | null : Perhaps shows none (some .null)
  | absent : Perhaps shows none none

def IsText (text : String) (v : Json) : Prop := v = .str text

theorem isText_str (text : String) : IsText text (.str text) := rfl

theorem Perhaps.read {shows : α → Json → Prop} {read : Json → Option α} {a? : Option α}
    {column : Option Json} (h : Perhaps shows a? column)
    (hread : ∀ a v, shows a v → v.isNull = false ∧ read v = some a) :
    optional read column = some a? := by
  cases h with
  | given hshown =>
    obtain ⟨hnull, hvalue⟩ := hread _ _ hshown
    simp [optional, hnull, hvalue]
  | null | absent => rfl

theorem perhaps_ofOption {shows : α → Json → Prop} {write : α → Json}
    (hwrite : ∀ a, shows a (write a)) (a? : Option α) :
    Perhaps shows a? (some (ofOption write a?)) := by
  cases a? with
  | none => exact .null
  | some a => exact .given (hwrite a)

theorem Perhaps.read_text {text? : Option String} {column : Option Json}
    (h : Perhaps IsText text? column) : optional str? column = some text? := by
  refine h.read fun text v htext => ?_
  rw [htext]
  exact ⟨rfl, rfl⟩

/-! Lists -/

def Lists (describes : α → Json → Prop) (items : List α) (v : Json) : Prop :=
  ∃ vs, v = .arr vs ∧ List.Forall₂ describes items vs

theorem lists_map {describes : α → Json → Prop} {write : α → Json} {items : List α}
    (hwrite : ∀ a ∈ items, describes a (write a)) :
    Lists describes items (.arr (items.map write)) :=
  ⟨_, rfl, List.forall₂_map_right_iff.mpr (List.forall₂_same.mpr hwrite)⟩

theorem Lists.read {describes : α → Json → Prop} {read : Json → Option β} {f : α → γ} {g : β → γ}
    {items : List α} (h : Lists describes items v)
    (hread : ∀ a v, describes a v → ∃ b, read v = some b ∧ g b = f a) :
    ∃ bs, listOf read v = some bs ∧ bs.map g = items.map f := by
  obtain ⟨vs, rfl, hitems⟩ := h
  show ∃ bs, vs.mapM read = some bs ∧ bs.map g = items.map f
  induction hitems with
  | nil => exact ⟨[], rfl, rfl⟩
  | cons hfirst _ ih =>
    obtain ⟨b, hb, hsame⟩ := hread _ _ hfirst
    obtain ⟨bs, hbs, hrest⟩ := ih
    refine ⟨b :: bs, ?_, by rw [List.map_cons, List.map_cons, hsame, hrest]⟩
    rw [List.mapM_cons, hb, hbs]
    rfl

theorem Lists.read_eq {describes : α → Json → Prop} {read : Json → Option α} {items : List α}
    (h : Lists describes items v) (hread : ∀ a v, describes a v → read v = some a) :
    listOf read v = some items := by
  obtain ⟨bs, hbs, hsame⟩ := h.read (f := id) (g := id) fun a v hv => ⟨a, hread a v hv, rfl⟩
  rw [hbs, ← List.map_id bs, hsame, List.map_id]

/-! Sorting the fields -/

theorem canonicalItems_eq_map (items : List Json) : canonicalItems items = items.map canonical := by
  induction items with
  | nil => rfl
  | cons v rest ih => rw [canonicalItems, ih, List.map_cons]

theorem mem_insertField {name : String} {sorted : List (String × Json)} {entry : String × Json}
    (h : entry ∈ insertField name v sorted) : entry = (name, v) ∨ entry ∈ sorted := by
  induction sorted with
  | nil => exact .inl (List.mem_singleton.mp h)
  | cons first rest ih =>
    obtain ⟨other, w⟩ := first
    unfold insertField at h
    split_ifs at h
    · rcases List.mem_cons.mp h with rfl | h
      · exact .inl rfl
      · exact .inr (List.mem_cons_of_mem _ h)
    · exact List.mem_cons.mp h
    · rcases List.mem_cons.mp h with rfl | h
      · exact .inr List.mem_cons_self
      · exact (ih h).imp_right (List.mem_cons_of_mem _)

theorem pairwise_insertField {name : String} {sorted : List (String × Json)}
    (h : sorted.Pairwise (·.1 < ·.1)) : (insertField name v sorted).Pairwise (·.1 < ·.1) := by
  induction sorted with
  | nil => exact List.pairwise_singleton _ _
  | cons first rest ih =>
    obtain ⟨other, w⟩ := first
    obtain ⟨hfirst, hrest⟩ := List.pairwise_cons.mp h
    unfold insertField
    split_ifs with hsame hless
    · subst hsame
      exact List.pairwise_cons.mpr ⟨hfirst, hrest⟩
    · refine List.pairwise_cons.mpr ⟨fun entry hentry => ?_, h⟩
      rcases List.mem_cons.mp hentry with rfl | hentry
      · exact hless
      · exact lt_trans hless (hfirst entry hentry)
    · have hgreater : other < name := lt_of_le_of_ne (not_lt.mp hless) (Ne.symm hsame)
      refine List.pairwise_cons.mpr ⟨fun entry hentry => ?_, ih hrest⟩
      rcases mem_insertField hentry with rfl | hentry
      · exact hgreater
      · exact hfirst entry hentry

theorem filter_eq_nil_of_lt {name : String} {rest : List (String × Json)}
    (h : ∀ entry ∈ rest, name < entry.1) : rest.filter (·.1 = name) = [] := by
  refine List.filter_eq_nil_iff.mpr fun entry hentry => ?_
  simpa using (h entry hentry).ne'

theorem filter_insertField {name : String} {sorted : List (String × Json)}
    (h : sorted.Pairwise (·.1 < ·.1)) (other : String) :
    (insertField name v sorted).filter (·.1 = other) =
      if name = other then [(name, v)] else sorted.filter (·.1 = other) := by
  induction sorted with
  | nil => by_cases hother : name = other <;> simp [insertField, hother]
  | cons first rest ih =>
    obtain ⟨old, w⟩ := first
    obtain ⟨hfirst, hrest⟩ := List.pairwise_cons.mp h
    unfold insertField
    -- the field takes the place of the first one, or goes in front of it, or goes on to the rest
    split_ifs with hsame hother hless hother hother
    · subst hsame hother
      rw [List.filter_cons_of_pos (by simp), filter_eq_nil_of_lt hfirst]
    · subst hsame
      simp [hother]
    · subst hother
      have hafter : ∀ entry ∈ (old, w) :: rest, name < entry.1 :=
        List.forall_mem_cons.mpr ⟨hless, fun entry hentry => hless.trans (hfirst entry hentry)⟩
      rw [List.filter_cons_of_pos (by simp), filter_eq_nil_of_lt hafter]
    · rw [List.filter_cons_of_neg (by simpa using hother)]
    · subst hother
      rw [List.filter_cons_of_neg (by simpa using Ne.symm hsame), ih hrest, if_pos rfl]
    · rw [List.filter_cons, List.filter_cons, ih hrest, if_neg hother]

theorem filter_canonicalFields {sorted : List (String × Json)} (h : sorted.Pairwise (·.1 < ·.1))
    (name : String) : (canonicalFields sorted fields).filter (·.1 = name) =
      ((fields.filter (·.1 = name)).getLast?.map fun entry => [(name, entry.2.canonical)]).getD
        (sorted.filter (·.1 = name)) := by
  -- a later field with the same name takes the place of this one
  induction fields generalizing sorted with
  | nil => rfl
  | cons first rest ih =>
    obtain ⟨other, w⟩ := first
    rw [canonicalFields, ih (pairwise_insertField h), filter_insertField h]
    by_cases hother : other = name
    · subst hother
      rw [if_pos rfl, List.filter_cons_of_pos (by simp), List.getLast?_cons]
      cases (rest.filter (·.1 = other)).getLast? <;> rfl
    · rw [if_neg hother, List.filter_cons_of_neg (by simpa using hother)]

theorem Holds.canonical (h : v.Holds given) :
    v.canonical.Holds (given.map fun entry => (entry.1, entry.2.map Json.canonical)) := by
  obtain ⟨fields, rfl, hfields⟩ := h
  refine ⟨canonicalFields [] fields, rfl, fun entry hentry => ?_⟩
  obtain ⟨⟨name, w?⟩, hgiven, rfl⟩ := List.mem_map.mp hentry
  rw [filter_canonicalFields .nil, hfields _ hgiven]
  cases w? <;> rfl

theorem Perhaps.canonical {shows : α → Json → Prop} {a? : Option α} {column : Option Json}
    (h : Perhaps shows a? column) (hshows : ∀ a v, shows a v → shows a v.canonical) :
    Perhaps shows a? (column.map Json.canonical) := by
  cases h with
  | given hshown => exact .given (hshows _ _ hshown)
  | null => exact .null
  | absent => exact .absent

theorem Perhaps.canonical_text {text? : Option String} {column : Option Json}
    (h : Perhaps IsText text? column) : Perhaps IsText text? (column.map Json.canonical) := by
  refine h.canonical ?_
  rintro text _ rfl
  rfl

theorem Lists.canonical {describes : α → Json → Prop} {items : List α}
    (h : Lists describes items v) (hdescribes : ∀ a v, describes a v → describes a v.canonical) :
    Lists describes items v.canonical := by
  obtain ⟨vs, rfl, hitems⟩ := h
  refine ⟨vs.map Json.canonical, ?_, ?_⟩
  · rw [Json.canonical, canonicalItems_eq_map]
  · exact List.forall₂_map_right_iff.mpr (hitems.imp fun a v => hdescribes a v)

end ReleaseTracker.Json
