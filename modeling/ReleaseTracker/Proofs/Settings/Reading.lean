import ReleaseTracker.Proofs.Settings.Layers

/-! Reading the settings in a table of sections. A section is itself a table, or a list in the order
of its keys. If all sections are such and all values in them fit, each setting is read from its own
value (`ofGiven_of_isReadable`), and otherwise none is read (`ofGiven_of_not_isReadable`). -/

namespace ReleaseTracker.Settings
open Toml

def Setting.position : Setting → Nat
  | .databaseUrl | .clientId | .hubUrl | .concurrency => 0
  | .clientSecret | .feedUrlTemplate => 1
  | .listing => 2
  | .requestsPerSecond => 3

def inner? (found : Option Given) (key : String) (n : Nat) : Option Given :=
  found.bind fun inner => if inner.isList then inner.items[n]? else under? key inner.entries

def Given.value? (root : Given) (k : Setting) : Option Given :=
  inner? (under? k.sectionName root.entries) k.key k.position

def Given.fitsText : Given → Bool
  | .gap => true
  | v => v.text.isOk

def Setting.fits (k : Setting) (v : Given) : Bool :=
  match k with
  | .databaseUrl | .clientId | .clientSecret | .hubUrl | .feedUrlTemplate => v.fitsText
  | .listing => v.listing.isOk
  | .requestsPerSecond => v.natural32.isOk
  | .concurrency => v.natural.isOk

def ofValues (values : Setting → Option Given) : Settings where
  databaseUrl := (values .databaseUrl).bind (·.text.toOption)
  clientId := (values .clientId).bind (·.text.toOption)
  clientSecret := (values .clientSecret).bind (·.text.toOption)
  listing := ((values .listing).bind (·.listing.toOption)).getD default.listing
  requestsPerSecond :=
    ((values .requestsPerSecond).bind (·.natural32.toOption)).getD default.requestsPerSecond
  hubUrl := (values .hubUrl).bind (·.text.toOption)
  feedUrlTemplate := (values .feedUrlTemplate).bind (·.text.toOption)
  concurrency := ((values .concurrency).bind (·.natural.toOption)).getD default.concurrency

def IsSection (found : Option Given) : Prop :=
  ∀ inner, found = some inner → (inner.isTable || inner.isList) = true

structure IsReadable (root : Given) : Prop where
  sections : ∀ k : Setting, IsSection (under? k.sectionName root.entries)
  fits : ∀ (k : Setting) v, root.value? k = some v → k.fits v = true

variable {k : Setting} {root v : Given}

/-! Results, without the errors -/

section Results
variable {ε δ α β : Type}

theorem toOption_bind (x : Except ε α) (f : α → Except ε β) :
    (x >>= f).toOption = x.toOption.bind fun a => (f a).toOption := by
  cases x <;> rfl

theorem toOption_ok (a : α) : (Except.ok a : Except ε α).toOption = some a := rfl

theorem toOption_pure (a : α) : (pure a : Except ε α).toOption = some a := rfl

theorem toOption_mapError (f : ε → δ) (x : Except ε α) : (x.mapError f).toOption = x.toOption := by
  cases x <;> rfl

theorem toOption_map (f : α → β) (x : Except ε α) : (x.map f).toOption = x.toOption.map f := by
  cases x <;> rfl

end Results

section Values
variable {α : Type} {read : Given → Except Misfit α} {value : Option Given}

def readIf (read : Given → Except Misfit α) : Option Given → Option (Option α)
  | none => some none
  | some v => (read v).toOption.map some

theorem readIf_of_isOk (h : ∀ v, value = some v → (read v).isOk = true) :
    readIf read value = some (value.bind fun v => (read v).toOption) := by
  cases value with
  | none => rfl
  | some v =>
    have hok := h v rfl
    rw [readIf, Option.bind_some]
    cases hread : read v with
    | ok a => rfl
    | error e => rw [hread] at hok; cases hok

theorem readIf_of_misfit (read : Given → Except Misfit α) (h : (read v).isOk = false) :
    readIf read (some v) = none := by
  rw [readIf]
  cases hread : read v with
  | ok a => rw [hread] at h; cases h
  | error e => rfl

def readText : Option Given → Option (Option String)
  | some .gap => some none
  | value => readIf Given.text value

theorem fitsText_of_ne_gap (h : v ≠ .gap) : v.fitsText = v.text.isOk := by
  cases v with
  | gap => exact absurd rfl h
  | _ => rfl

theorem readText_of_ne_gap (h : value ≠ some .gap) : readText value = readIf Given.text value := by
  unfold readText
  split
  · exact absurd rfl h
  · rfl

theorem readText_of_fitsText (h : ∀ v, value = some v → v.fitsText = true) :
    readText value = some (value.bind (·.text.toOption)) := by
  by_cases hgap : value = some .gap
  · rw [hgap]
    rfl
  · rw [readText_of_ne_gap hgap]
    refine readIf_of_isOk fun v hv => ?_
    rw [← fitsText_of_ne_gap fun hsame => hgap (hsame ▸ hv)]
    exact h v hv

theorem readText_of_misfit (h : v.fitsText = false) : readText (some v) = none := by
  have hgap : v ≠ .gap := by
    rintro rfl
    cases h
  rw [readText_of_ne_gap fun hsame => hgap (Option.some.inj hsame)]
  exact readIf_of_misfit _ (fitsText_of_ne_gap hgap ▸ h)

end Values

/-! Sections -/

def Section.Holds (s : Section) (found : Option Given) (keys : List String) : Prop :=
  ∀ n key, keys[n]? = some key →
    s.values[n]? = some (inner? found key n) ∧ ∃ step, s.steps[n]? = some step

variable {found : Option Given} {keys : List String} {key : String} {n : Nat} {s : Section}

theorem holds_of_isSection (h : IsSection found) (kind : String) (keys : List String) :
    ∃ s, Section.ofGiven kind keys found = .ok s ∧ s.Holds found keys := by
  cases found with
  | none =>
    refine ⟨_, rfl, fun n key hkey => ⟨?_, .key key, ?_⟩⟩
    · rw [List.getElem?_map, hkey]
      rfl
    · rw [List.getElem?_map, hkey]
      rfl
  | some inner =>
    cases inner with
    | gap | scalar => cases h _ rfl
    | table origin entries =>
      exact ⟨_, rfl, fun n key hkey => by simp [hkey, inner?, Given.isList, Given.entries]⟩
    | list origin items =>
      refine ⟨_, rfl, fun n key hkey => ?_⟩
      obtain ⟨hn, -⟩ := List.getElem?_eq_some_iff.mp hkey
      simp [hn, inner?, Given.isList, Given.items]

theorem toOption_ofGiven_of_not_isSection (h : ¬ IsSection found) (kind : String)
    (keys : List String) : (Section.ofGiven kind keys found).toOption = none := by
  cases found with
  | none => exact absurd (fun _ h => nomatch h) h
  | some inner =>
    cases inner with
    | gap | scalar => rfl
    | table | list => exact absurd (fun _ h => Option.some.inj h ▸ rfl) h

theorem Section.Holds.value {α : Type} (h : s.Holds found keys) (hkey : keys[n]? = some key)
    (read : Given → Except Misfit α) :
    (s.value n read).toOption = readIf read (inner? found key n) := by
  obtain ⟨hvalue, step, hstep⟩ := h n key hkey
  unfold Section.value
  rw [hvalue, hstep]
  cases inner? found key n with
  | none => rfl
  | some v => exact (toOption_mapError _ _).trans (toOption_map _ _)

theorem Section.Holds.text (h : s.Holds found keys) (hkey : keys[n]? = some key) :
    (s.text n).toOption = readText (inner? found key n) := by
  unfold Section.text
  rw [(h n key hkey).1, Option.join_some]
  split
  · next hgap =>
    rw [hgap]
    rfl
  · next hgap => rw [readText_of_ne_gap hgap, h.value hkey]

section Sections
variable (settings : Settings)

theorem toOption_withDatabase (h : IsSection found) : (settings.withDatabase found).toOption =
    (readText (inner? found "url" 0)).bind fun databaseUrl =>
      some { settings with databaseUrl } := by
  obtain ⟨s, hs, hholds⟩ := holds_of_isSection h "DatabaseConfig" ["url"]
  have hurl : (s.text 0).toOption = _ := hholds.text rfl
  simp only [Settings.withDatabase, hs, toOption_bind, toOption_ok, toOption_pure,
    Option.bind_some, hurl]

theorem toOption_withGitHub (h : IsSection found) : (settings.withGitHub found).toOption =
    (readText (inner? found "client_id" 0)).bind fun clientId =>
      (readText (inner? found "client_secret" 1)).bind fun clientSecret =>
        (readIf Given.listing (inner? found "listing" 2)).bind fun listing =>
          (readIf Given.natural32 (inner? found "requests_per_second" 3)).bind fun pace =>
            some { settings with
              clientId, clientSecret
              listing := listing.getD settings.listing
              requestsPerSecond := pace.getD settings.requestsPerSecond } := by
  obtain ⟨s, hs, hholds⟩ := holds_of_isSection h "GitHubConfig"
    ["client_id", "client_secret", "listing", "requests_per_second"]
  have hid : (s.text 0).toOption = _ := hholds.text rfl
  have hsecret : (s.text 1).toOption = _ := hholds.text rfl
  have hlisting : (s.value 2 Given.listing).toOption = _ := hholds.value rfl _
  have hpace : (s.value 3 Given.natural32).toOption = _ := hholds.value rfl _
  simp only [Settings.withGitHub, hs, toOption_bind, toOption_ok, toOption_pure,
    Option.bind_some, hid, hsecret, hlisting, hpace]

theorem toOption_withPublisher (h : IsSection found) : (settings.withPublisher found).toOption =
    (readText (inner? found "hub_url" 0)).bind fun hubUrl =>
      (readText (inner? found "feed_url_template" 1)).bind fun feedUrlTemplate =>
        some { settings with hubUrl, feedUrlTemplate } := by
  obtain ⟨s, hs, hholds⟩ :=
    holds_of_isSection h "PublisherConfig" ["hub_url", "feed_url_template"]
  have hurl : (s.text 0).toOption = _ := hholds.text rfl
  have htemplate : (s.text 1).toOption = _ := hholds.text rfl
  simp only [Settings.withPublisher, hs, toOption_bind, toOption_ok, toOption_pure,
    Option.bind_some, hurl, htemplate]

theorem toOption_withWorker (h : IsSection found) : (settings.withWorker found).toOption =
    (readIf Given.natural (inner? found "concurrency" 0)).bind fun concurrency =>
      some { settings with concurrency := concurrency.getD settings.concurrency } := by
  obtain ⟨s, hs, hholds⟩ := holds_of_isSection h "WorkerConfig" ["concurrency"]
  have hconcurrency : (s.value 0 Given.natural).toOption = _ := hholds.value rfl _
  simp only [Settings.withWorker, hs, toOption_bind, toOption_ok, toOption_pure,
    Option.bind_some, hconcurrency]

end Sections

theorem toOption_inSection {α : Type} (root : Given) (name : String)
    (read : Option Given → Except Misfit α) :
    (inSection root name read).toOption = (read (under? name root.entries)).toOption :=
  toOption_mapError _ _

theorem toOption_ofGiven
    (hsections : ∀ k : Setting, IsSection (under? k.sectionName root.entries)) :
    (ofGiven root).toOption =
      (readText (root.value? .databaseUrl)).bind fun databaseUrl =>
        (readText (root.value? .clientId)).bind fun clientId =>
          (readText (root.value? .clientSecret)).bind fun clientSecret =>
            (readIf Given.listing (root.value? .listing)).bind fun listing =>
              (readIf Given.natural32 (root.value? .requestsPerSecond)).bind fun pace =>
                (readText (root.value? .hubUrl)).bind fun hubUrl =>
                  (readText (root.value? .feedUrlTemplate)).bind fun feedUrlTemplate =>
                    (readIf Given.natural (root.value? .concurrency)).bind fun concurrency =>
                      some {
                        databaseUrl, clientId, clientSecret, hubUrl, feedUrlTemplate
                        listing := listing.getD default.listing
                        requestsPerSecond := pace.getD default.requestsPerSecond
                        concurrency := concurrency.getD default.concurrency } := by
  have hdatabase (settings : Settings) := toOption_withDatabase settings (hsections .databaseUrl)
  have hgitHub (settings : Settings) := toOption_withGitHub settings (hsections .clientId)
  have hpublisher (settings : Settings) := toOption_withPublisher settings (hsections .hubUrl)
  have hworker (settings : Settings) := toOption_withWorker settings (hsections .concurrency)
  simp only [Setting.sectionName] at hdatabase hgitHub hpublisher hworker
  simp only [ofGiven, toOption_bind, toOption_inSection, hdatabase, hgitHub, hpublisher, hworker,
    Option.bind_assoc, Option.bind_some]
  rfl

theorem ofGiven_of_not_isSection (h : ¬ IsSection (under? k.sectionName root.entries)) :
    (ofGiven root).toOption = none := by
  have hread := toOption_ofGiven_of_not_isSection h
  cases k
  all_goals
    simp only [Setting.sectionName] at hread
    simp [ofGiven, toOption_bind, toOption_inSection, Settings.withDatabase, Settings.withGitHub,
      Settings.withPublisher, Settings.withWorker, hread]

theorem ofGiven_of_isReadable (h : IsReadable root) :
    (ofGiven root).toOption = some (ofValues root.value?) := by
  rw [toOption_ofGiven h.sections, readText_of_fitsText (h.fits .databaseUrl),
    readText_of_fitsText (h.fits .clientId), readText_of_fitsText (h.fits .clientSecret),
    readIf_of_isOk (h.fits .listing), readIf_of_isOk (h.fits .requestsPerSecond),
    readText_of_fitsText (h.fits .hubUrl), readText_of_fitsText (h.fits .feedUrlTemplate),
    readIf_of_isOk (h.fits .concurrency)]
  rfl

theorem ofGiven_of_misfit
    (hsections : ∀ k : Setting, IsSection (under? k.sectionName root.entries))
    (hvalue : root.value? k = some v) (hmisfit : k.fits v = false) :
    (ofGiven root).toOption = none := by
  rw [toOption_ofGiven hsections]
  cases k with
  | listing | requestsPerSecond | concurrency => simp [hvalue, readIf_of_misfit _ hmisfit]
  | _ => simp [hvalue, readText_of_misfit hmisfit]

theorem ofGiven_of_not_isReadable (h : ¬ IsReadable root) : (ofGiven root).toOption = none := by
  by_cases hsections : ∀ k : Setting, IsSection (under? k.sectionName root.entries)
  · have hmisfit : ∃ (k : Setting) (v : Given), root.value? k = some v ∧ ¬ k.fits v = true := by
      by_contra hfits
      push Not at hfits
      exact h ⟨hsections, hfits⟩
    obtain ⟨k, v, hvalue, hmisfit⟩ := hmisfit
    exact ofGiven_of_misfit hsections hvalue (by simpa using hmisfit)
  · obtain ⟨k, hk⟩ := not_forall.mp hsections
    exact ofGiven_of_not_isSection hk

end ReleaseTracker.Settings
