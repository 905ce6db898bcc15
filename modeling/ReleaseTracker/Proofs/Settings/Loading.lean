import ReleaseTracker.Proofs.Settings.Reading

/-! Loading the settings from a file of the user, a file in the folder and the environment: each of
them is read from the word of the highest source about it (`load_takes_highest`). -/

namespace ReleaseTracker.Settings
open Toml

variable {k : Setting} {root : Given} {layers : List Layer}

/-! What sources give -/

theorem isPlaced_ofName (name : String) (v : Given) : IsPlaced (.ofName name, v) := by
  simp only [IsPlaced, Place.ofName]
  cases Place.key? name.toList with
  | none => exact ⟨_, _, rfl⟩
  | some found =>
    rw [Option.bind_some]
    cases Place.steps? name.toList.length found.2 <;> exact ⟨_, _, rfl⟩

theorem isPlaced_of_mem_ofEntries {origin : Origin} {entries : List (String × Toml)}
    {entry : Place × Given} (h : entry ∈ Layer.ofEntries origin entries) : IsPlaced entry := by
  obtain ⟨⟨name, v⟩, -, rfl⟩ := List.mem_map.mp h
  exact isPlaced_ofName name _

theorem isPlaced_of_ofVariable? {name text : String} {entry : Place × Given}
    (h : ofVariable? name text = some entry) : IsPlaced entry := by
  simp only [ofVariable?, Option.ite_none_right_eq_some, Option.some.injEq] at h
  obtain ⟨-, rfl⟩ := h
  exact isPlaced_ofName _ _

theorem isPlaced_of_mem_ofEnvironment {environment : List (String × String)}
    {entry : Place × Given} (h : entry ∈ Layer.ofEnvironment environment) : IsPlaced entry := by
  obtain ⟨given, -, hentry⟩ := List.mem_filterMap.mp h
  exact isPlaced_of_ofVariable? hentry

theorem isPlaced_of_mem_fileLayer {file : Option File} {layer : Layer} {entry : Place × Given}
    (hlayer : fileLayer file = .ok layer) (h : entry ∈ layer) : IsPlaced entry := by
  unfold fileLayer at hlayer
  split at hlayer
  · obtain rfl := Except.ok.inj hlayer
    cases h
  · unfold File.layer at hlayer
    split at hlayer
    · obtain rfl := Except.ok.inj hlayer
      cases h
    · dsimp only at hlayer
      split at hlayer
      · obtain rfl := Except.ok.inj hlayer
        exact isPlaced_of_mem_ofEntries h
      · cases hlayer

theorem ofName_sectionName (k : Setting) : Place.ofName k.sectionName = [.key k.sectionName] := by
  cases k <;> rfl

theorem words_ofEntries (k : Setting) (origin : Origin) (entries : List (String × Toml)) :
    k.words (.ofName k.sectionName, .ofToml origin (.table entries)) =
      (entries.filter (·.1 = k.key)).map fun entry => some ([], .ofToml origin entry.2) := by
  rw [ofName_sectionName, Setting.words, if_pos rfl, Given.ofToml, Given.wordsOn]
  induction entries with
  | nil => rfl
  | cons entry rest ih =>
    rw [Given.ofEntries, List.filter_cons, List.filter_cons]
    split_ifs with hkey
    · exact congrArg (_ :: ·) ih
    · exact ih

theorem ofVariable?_variableName (k : Setting) (text : String) :
    ofVariable? k.variableName text =
      some ([.key k.sectionName, .key k.key], .scalar .environment (valueOf text)) := by
  cases k <;> rfl

theorem words_variable (k other : Setting) (v : Given) :
    other.words ([.key k.sectionName, .key k.key], v) =
      if other = k then [some ([], v)] else [] := by
  cases k <;> cases other <;> rfl

/-! Sections that are lists -/

def Setting.lists (k : Setting) : Place × Given → Bool
  | ([.key name], v) => name = k.sectionName && v.isList
  | (.key name :: .index _ :: _, _) => name = k.sectionName
  | _ => false

def IsKeyed (found : Option Given) : Prop := ∀ inner, found = some inner → inner.isList = false

theorem value?_of_isKeyed (h : IsKeyed (under? k.sectionName root.entries)) :
    root.value? k = root.setting? k := by
  unfold Given.value? Given.setting? inner?
  cases hfound : under? k.sectionName root.entries with
  | none => rfl
  | some inner => rw [Option.bind_some, Option.bind_some, if_neg (by simp [h inner hfound])]

theorem isList_layEntries {below : Given} (h : below.isList = false)
    (entries : List (String × Given)) : (Given.layEntries below entries).isList = false := by
  induction entries generalizing below with
  | nil => exact h
  | cons entry rest ih => exact ih rfl

theorem isList_lay {v : Given} (h : v.isList = false) (old : Given) :
    (old.lay v).isList = false := by
  cases v with
  | table origin entries =>
    rw [Given.lay]
    exact isList_layEntries (by cases old <;> rfl) entries
  | _ => exact h

theorem isKeyed_update {entry : Place × Given} (hplaced : IsPlaced entry)
    (hlists : k.lists entry = false) (h : IsKeyed (under? k.sectionName root.entries)) :
    IsKeyed (under? k.sectionName (root.update (·.lay entry.2) entry.1).entries) := by
  obtain ⟨place, v⟩ := entry
  obtain ⟨name, rest, rfl⟩ := hplaced
  rw [Given.entries_update_key, under?_putEntry]
  split_ifs with hname
  · rintro _ ⟨⟩
    match rest with
    | [] => exact isList_lay (by simpa [Setting.lists, hname] using hlists) _
    | .key inner :: below => rfl
    | .index _ :: _ => simp [Setting.lists, hname] at hlists
  · exact h

theorem isKeyed_foldl {entries : List (Place × Given)}
    (hplaced : ∀ entry ∈ entries, IsPlaced entry)
    (hlists : ∀ entry ∈ entries, k.lists entry = false)
    (h : IsKeyed (under? k.sectionName root.entries)) :
    IsKeyed (under? k.sectionName (entries.foldl (fun below (entry : Place × Given) =>
      below.update (·.lay entry.2) entry.1) root).entries) := by
  induction entries generalizing root with
  | nil => exact h
  | cons entry rest ih =>
    obtain ⟨hfirst, hrest⟩ := List.forall_mem_cons.mp hplaced
    obtain ⟨hkept, hlists⟩ := List.forall_mem_cons.mp hlists
    exact ih hrest hlists (isKeyed_update hfirst hkept h)

theorem isKeyed_layAll (hplaced : ∀ entry ∈ layers.flatten, IsPlaced entry)
    (hlists : ∀ entry ∈ layers.flatten, k.lists entry = false) :
    IsKeyed (under? k.sectionName (layAll layers).entries) :=
  isKeyed_foldl hplaced hlists fun _ h => by cases h

/-! Loading -/

variable {sources : Sources} {user folder : Layer}

theorem load_eq_getD (sources : Sources) :
    load sources = (tryLoad sources).toOption.getD default := by
  unfold load
  cases tryLoad sources <;> rfl

theorem load_of_unreadable {e : LoadError}
    (h : fileLayer sources.userFile = .error e ∨ fileLayer sources.folderFile = .error e) :
    load sources = default := by
  rw [load_eq_getD, tryLoad, Sources.layers]
  rcases h with h | h
  · rw [h]
    rfl
  · rw [h]
    cases fileLayer sources.userFile <;> rfl

theorem load_of_layers (huser : fileLayer sources.userFile = .ok user)
    (hfolder : fileLayer sources.folderFile = .ok folder) :
    load sources = (ofGiven (layAll
      [user, folder, .ofEnvironment sources.environment])).toOption.getD default := by
  rw [load_eq_getD, tryLoad, Sources.layers, huser, hfolder]
  exact congrArg (·.getD default) (toOption_mapError _ _)

theorem load_of_isReadable (huser : fileLayer sources.userFile = .ok user)
    (hfolder : fileLayer sources.folderFile = .ok folder)
    (h : IsReadable (layAll [user, folder, .ofEnvironment sources.environment])) :
    load sources =
      ofValues (layAll [user, folder, .ofEnvironment sources.environment]).value? := by
  rw [load_of_layers huser hfolder, ofGiven_of_isReadable h, Option.getD_some]

theorem load_of_not_isReadable (huser : fileLayer sources.userFile = .ok user)
    (hfolder : fileLayer sources.folderFile = .ok folder)
    (h : ¬ IsReadable (layAll [user, folder, .ofEnvironment sources.environment])) :
    load sources = default := by
  rw [load_of_layers huser hfolder, ofGiven_of_not_isReadable h, Option.getD_none]

theorem isPlaced_of_mem_sources (huser : fileLayer sources.userFile = .ok user)
    (hfolder : fileLayer sources.folderFile = .ok folder) :
    ∀ entry ∈ [user, folder, .ofEnvironment sources.environment].flatten, IsPlaced entry := by
  intro entry hentry
  simp only [List.flatten_cons, List.flatten_nil, List.append_nil, List.mem_append] at hentry
  rcases hentry with h | h | h
  · exact isPlaced_of_mem_fileLayer huser h
  · exact isPlaced_of_mem_fileLayer hfolder h
  · exact isPlaced_of_mem_ofEnvironment h

/-- Each setting is read from what the highest of the sources says of it, and no other setting
counts. When a file or a value cannot be read, all settings have their defaults. -/
theorem load_takes_highest (sources : Sources) :
    (∀ e, fileLayer sources.userFile = .error e ∨ fileLayer sources.folderFile = .error e →
      load sources = default) ∧
    (∀ user folder, fileLayer sources.userFile = .ok user →
      fileLayer sources.folderFile = .ok folder →
      let environment := Layer.ofEnvironment sources.environment
      let layers := [user, folder, environment]
      let root := layAll layers
      (IsReadable root → load sources = ofValues root.value?) ∧
      (¬ IsReadable root → load sources = default) ∧
      ∀ k : Setting,
        ((∀ entry ∈ layers.flatten, k.lists entry = false) →
          IsKeyed (under? k.sectionName root.entries)) ∧
        (IsKeyed (under? k.sectionName root.entries) →
          root.value? k = k.merged? layers ∧
          (k.highestWord? user folder environment = none → root.value? k = none) ∧
          (k.highestWord? user folder environment = some none → root.value? k = none) ∧
          ∀ v, k.highestWord? user folder environment = some (some ([], v)) → v.isTable = false →
            root.value? k = some v) ∧
        ∀ origin items, under? k.sectionName root.entries = some (.list origin items) →
          root.value? k = items[k.position]?) ∧
    ∀ k : Setting,
      (∀ text, ∃ entry, ofVariable? k.variableName text = some entry ∧
        ∀ other : Setting, other.words entry =
          if other = k then [some ([], .scalar .environment (valueOf text))] else []) ∧
      ∀ origin entries, k.words (.ofName k.sectionName, .ofToml origin (.table entries)) =
        (entries.filter (·.1 = k.key)).map fun entry => some ([], .ofToml origin entry.2) := by
  refine ⟨fun e h => load_of_unreadable h, fun user folder huser hfolder => ?_, fun k => ?_⟩
  · have hplaced := isPlaced_of_mem_sources huser hfolder
    refine ⟨load_of_isReadable huser hfolder, load_of_not_isReadable huser hfolder,
      fun k => ⟨isKeyed_layAll hplaced, fun h => ?_, ?_⟩⟩
    · rw [value?_of_isKeyed h, setting?_layAll hplaced]
      exact ⟨rfl, merged?_of_highestWord?_none, merged?_of_taken, fun v => merged?_of_given⟩
    · intro origin items hlist
      rw [Given.value?, inner?, hlist]
      rfl
  · exact ⟨fun text => ⟨_, ofVariable?_variableName k text, fun other => words_variable k other _⟩,
      words_ofEntries k⟩

/-- Settings from all sources. The folder's file puts a truth value in place of a section, and the
environment a list in place of another. -/
def mixedSources : Sources where
  userFile := some ⟨"user", "user", some
    "[database]\nurl = \"u\"\n[github]\nclient_id = \"x\"\nlisting = \"soap\"\n"⟩
  folderFile := some ⟨"folder", "folder", some "github = false\n[database]\nurl = \"f\"\n"⟩
  environment := [("STARFEED_GITHUB__LISTING", "graphql"), ("STARFEED_WORKER[0]", "9")]

def mixedValues : Setting → Option Given
  | .databaseUrl => some (.scalar (.file "folder") (.text "f"))
  | .listing => some (.scalar .environment (.text "graphql"))
  | .concurrency => some (.scalar .environment (.int 9))
  | _ => none

theorem load_takes_highest_of_mixed :
    load mixedSources =
      { default with databaseUrl := some "f", listing := .graphql, concurrency := 9 } ∧
    load { mixedSources with environment := [] } = default ∧
    load { mixedSources with folderFile := some ⟨"broken", "broken", some "["⟩ } = default := by
  let user : Layer := .ofEntries (.file "user")
    [("database", .table [("url", .scalar (.text "u"))]),
      ("github", .table [("client_id", .scalar (.text "x")), ("listing", .scalar (.text "soap"))])]
  let folder : Layer := .ofEntries (.file "folder")
    [("database", .table [("url", .scalar (.text "f"))]), ("github", .scalar (.bool false))]
  let environment : Layer :=
    [([.key "github", .key "listing"], .scalar .environment (.text "graphql")),
      ([.key "worker", .index 0], .scalar .environment (.int 9))]
  have huser : fileLayer mixedSources.userFile = .ok user := by decide +kernel
  have hfolder : fileLayer mixedSources.folderFile = .ok folder := by decide +kernel
  have henvironment : Layer.ofEnvironment mixedSources.environment = environment := by
    decide +kernel
  refine ⟨?_, ?_, ?_⟩
  · obtain ⟨hread, -, hvalues⟩ := (load_takes_highest mixedSources).2.1 user folder huser hfolder
    rw [henvironment] at hread hvalues
    have hkeyed (k : Setting)
        (h : ∀ entry ∈ [user, folder, environment].flatten, k.lists entry = false) :=
      (hvalues k).2.1 ((hvalues k).1 h)
    have hvalue : (layAll [user, folder, environment]).value? = mixedValues := by
      funext k
      cases k with
      | databaseUrl => exact (hkeyed .databaseUrl (by decide)).2.2.2 _ rfl rfl
      | clientId => exact (hkeyed .clientId (by decide)).2.2.1 rfl
      | clientSecret => exact (hkeyed .clientSecret (by decide)).2.2.1 rfl
      | listing => exact (hkeyed .listing (by decide)).2.2.2 _ rfl rfl
      | requestsPerSecond => exact (hkeyed .requestsPerSecond (by decide)).2.2.1 rfl
      | hubUrl => exact (hkeyed .hubUrl (by decide)).2.1 rfl
      | feedUrlTemplate => exact (hkeyed .feedUrlTemplate (by decide)).2.1 rfl
      | concurrency => exact (hvalues .concurrency).2.2 none [.scalar .environment (.int 9)] rfl
    rw [hread ⟨fun k inner h => by cases k <;> cases h <;> rfl, fun k v h => ?_⟩, hvalue]
    · rfl
    · rw [hvalue] at h
      cases k <;> cases h <;> rfl
  · obtain ⟨-, hmisfit, -⟩ :=
      (load_takes_highest { mixedSources with environment := [] }).2.1 user folder huser hfolder
    exact hmisfit fun h => absurd (h.sections .clientId _ rfl) (by decide)
  · have hbroken : (fileLayer (some ⟨"broken", "broken", some "["⟩)).isOk = false := by
      decide +kernel
    cases he : fileLayer (some ⟨"broken", "broken", some "["⟩) with
    | ok layer =>
      rw [he] at hbroken
      cases hbroken
    | error e => exact (load_takes_highest _).1 e (.inr he)

/-- A client id of the user is lost with its section, although no other source sets one, a variable
that is named after no setting sets one, and a file that is no text is passed over. -/
theorem load_mixed_ne :
    Toml.parse "[database]\nurl = \"u\"\n[github]\nclient_id = \"x\"\nlisting = \"soap\"\n" =
      .ok [("database", .table [("url", .scalar (.text "u"))]), ("github", .table
        [("client_id", .scalar (.text "x")), ("listing", .scalar (.text "soap"))])] ∧
    Toml.parse "github = false\n[database]\nurl = \"f\"\n" =
      .ok [("database", .table [("url", .scalar (.text "f"))]), ("github", .scalar (.bool false))] ∧
    load mixedSources =
      { default with databaseUrl := some "f", listing := .graphql, concurrency := 9 } ∧
    load mixedSources ≠
      { default with databaseUrl := some "f", clientId := some "x", listing := .graphql } ∧
    load { mixedSources with folderFile := some ⟨"folder", "folder", none⟩ } ≠ default := by
  have hload : load mixedSources =
      { default with databaseUrl := some "f", listing := .graphql, concurrency := 9 } := by
    decide +kernel
  refine ⟨by decide +kernel, by decide +kernel, hload, ?_, by decide +kernel⟩
  rw [hload]
  decide

end ReleaseTracker.Settings
