import ReleaseTracker.Proofs.Settings.Merging
import ReleaseTracker.Settings.Load

/-! The values of the single settings in layers of settings. Each setting stands under a key of its
own in the table of its section, and its value comes from what the layers say of it and from nothing
else (`setting?_layAll`). Of several words about one setting the last decides. -/

namespace ReleaseTracker.Settings
open Toml

inductive Setting where
  | databaseUrl
  | clientId
  | clientSecret
  | listing
  | requestsPerSecond
  | hubUrl
  | feedUrlTemplate
  | concurrency
deriving DecidableEq

namespace Setting

def sectionName : Setting → String
  | .databaseUrl => "database"
  | .clientId | .clientSecret | .listing | .requestsPerSecond => "github"
  | .hubUrl | .feedUrlTemplate => "publisher"
  | .concurrency => "worker"

def key : Setting → String
  | .databaseUrl => "url"
  | .clientId => "client_id"
  | .clientSecret => "client_secret"
  | .listing => "listing"
  | .requestsPerSecond => "requests_per_second"
  | .hubUrl => "hub_url"
  | .feedUrlTemplate => "feed_url_template"
  | .concurrency => "concurrency"

def variableName : Setting → String
  | .databaseUrl => "STARFEED_DATABASE__URL"
  | .clientId => "STARFEED_GITHUB__CLIENT_ID"
  | .clientSecret => "STARFEED_GITHUB__CLIENT_SECRET"
  | .listing => "STARFEED_GITHUB__LISTING"
  | .requestsPerSecond => "STARFEED_GITHUB__REQUESTS_PER_SECOND"
  | .hubUrl => "STARFEED_PUBLISHER__HUB_URL"
  | .feedUrlTemplate => "STARFEED_PUBLISHER__FEED_URL_TEMPLATE"
  | .concurrency => "STARFEED_WORKER__CONCURRENCY"

/-- What a value at a place says of a setting. The place leads to the section and the value is a
table with the setting's key, or the place leads to the setting itself. When anything but a table
takes the place of the section, the setting is taken away. -/
def words (k : Setting) : Place × Given → List Word
  | ([.key name], v) => if name = k.sectionName then v.wordsOn k.key else []
  | (.key name :: .key inner :: below, v) =>
    if name = k.sectionName ∧ inner = k.key then [some (below, v)] else []
  | (.key name :: .index _ :: _, _) => if name = k.sectionName then [none] else []
  | _ => []

/-- The value of a setting once layers are laid over each other. Tables that are given to the same
setting are merged key by key. -/
def merged? (k : Setting) (layers : List Layer) : Option Given :=
  hearAll none (layers.flatten.flatMap k.words)

end Setting

def IsPlaced (entry : Place × Given) : Prop := ∃ name rest, entry.1 = .key name :: rest

/-! One value -/

namespace Given

def setting? (root : Given) (k : Setting) : Option Given :=
  (under? k.sectionName root.entries).bind fun inner => under? k.key inner.entries

variable {k : Setting} {root : Given} {entry : Place × Given}

theorem setting?_eq_getD (k : Setting) (root : Given) : root.setting? k =
    under? k.key ((under? k.sectionName root.entries).getD .gap).entries := by
  unfold setting?
  cases under? k.sectionName root.entries <;> rfl

theorem setting?_of_under? {other : Given}
    (h : under? k.sectionName other.entries = under? k.sectionName root.entries) :
    other.setting? k = root.setting? k := by
  rw [setting?, setting?, h]

theorem setting?_update (hplaced : IsPlaced entry) :
    (root.update (·.lay entry.2) entry.1).setting? k =
      hearAll (root.setting? k) (k.words entry) := by
  obtain ⟨place, v⟩ := entry
  obtain ⟨name, rest, rfl⟩ := hplaced
  by_cases hname : name = k.sectionName
  · subst hname
    rw [setting?_eq_getD, setting?_eq_getD, entries_update_key, under?_putEntry, if_pos rfl,
      Option.getD_some]
    match rest with
    | [] =>
      rw [update, Setting.words, if_pos rfl]
      exact under?_lay _ _ _
    | .key inner :: below =>
      rw [entries_update_key, under?_putEntry, Setting.words]
      by_cases hinner : inner = k.key
      · rw [if_pos hinner, if_pos ⟨rfl, hinner⟩, hinner]
        rfl
      · rw [if_neg hinner, if_neg fun h => hinner h.2, hearAll_nil]
    | .index _ :: _ =>
      rw [Setting.words, if_pos rfl]
      rfl
  · have hsame : under? k.sectionName (root.update (·.lay v) (.key name :: rest)).entries =
        under? k.sectionName root.entries := by
      rw [entries_update_key, under?_putEntry, if_neg hname]
    rw [setting?_of_under? hsame]
    match rest with
    | [] => rw [Setting.words, if_neg hname, hearAll_nil]
    | .key inner :: below => rw [Setting.words, if_neg fun h => hname h.1, hearAll_nil]
    | .index _ :: _ => rw [Setting.words, if_neg hname, hearAll_nil]

end Given

variable {k : Setting} {layers : List Layer}

theorem setting?_foldl {root : Given} {entries : List (Place × Given)}
    (hplaced : ∀ entry ∈ entries, IsPlaced entry) :
    (entries.foldl (fun below (entry : Place × Given) => below.update (·.lay entry.2) entry.1)
      root).setting? k = hearAll (root.setting? k) (entries.flatMap k.words) := by
  induction entries generalizing root with
  | nil => rfl
  | cons entry rest ih =>
    obtain ⟨hfirst, hrest⟩ := List.forall_mem_cons.mp hplaced
    rw [List.foldl_cons, List.flatMap_cons, hearAll_append, ← Given.setting?_update hfirst,
      ← ih hrest]

theorem setting?_layAll (hplaced : ∀ entry ∈ layers.flatten, IsPlaced entry) :
    (layAll layers).setting? k = k.merged? layers := setting?_foldl hplaced

/-! The last word -/

def Setting.lastWord? (k : Setting) (layer : Layer) : Option Word :=
  (layer.flatMap k.words).getLast?

/-- The word of the highest of three sources that says anything about a setting. -/
def Setting.highestWord? (k : Setting) (user folder environment : Layer) : Option Word :=
  (k.lastWord? environment).or ((k.lastWord? folder).or (k.lastWord? user))

theorem getLast?_words (k : Setting) (user folder environment : Layer) :
    ([user, folder, environment].flatten.flatMap k.words).getLast? =
      k.highestWord? user folder environment := by
  simp [Setting.highestWord?, Setting.lastWord?, List.getLast?_append, Option.or_assoc]

theorem hearAll_of_getLast? {words : List Word} {word : Word} (h : words.getLast? = some word) :
    ∃ old, hearAll none words = hear old word := by
  obtain ⟨init, rfl⟩ := List.getLast?_eq_some_iff.mp h
  exact ⟨hearAll none init, hearAll_append _ _ _⟩

variable {user folder environment : Layer} {v : Given}

theorem merged?_of_highestWord?_none (h : k.highestWord? user folder environment = none) :
    k.merged? [user, folder, environment] = none := by
  rw [← getLast?_words, List.getLast?_eq_none_iff] at h
  rw [Setting.merged?, h]
  rfl

theorem merged?_of_taken (h : k.highestWord? user folder environment = some none) :
    k.merged? [user, folder, environment] = none := by
  rw [← getLast?_words] at h
  obtain ⟨old, hmerged⟩ := hearAll_of_getLast? h
  exact hmerged

theorem merged?_of_given (h : k.highestWord? user folder environment = some (some ([], v)))
    (hv : v.isTable = false) : k.merged? [user, folder, environment] = some v := by
  rw [← getLast?_words] at h
  obtain ⟨old, hmerged⟩ := hearAll_of_getLast? h
  rw [Setting.merged?, hmerged, hear, Given.update, Given.lay_of_isTable_eq_false hv]

end ReleaseTracker.Settings
