import ReleaseTracker.Proofs.Settings.Loading

/-! The credential of the application from the environment. A variable is read as what it stands
for, and then printed. So a half of the credential that looks like a number or a truth value is the
one that was given only if it has the form in which such a value is printed (`Lasts`). -/

namespace ReleaseTracker.Settings
open Toml

def shown : Scalar → String
  | .bool b => toString b
  | .int n => toString n
  | .float x => x.plainText
  | .text s => s

theorem text_scalar (origin : Origin) (v : Scalar) :
    (Given.scalar origin v).text = .ok (shown v) := by
  cases v with
  | bool b => cases b <;> rfl
  | _ => rfl

/-! Texts that come back -/

def truth? (text : String) : Option Bool :=
  let lower := Text.lowerCase text
  if lower = "true" then some true else if lower = "false" then some false else none

def integer? (text : String) : Option Int :=
  (Numeral.signed? text.toList).filter Word.isInteger64

/-- Is a text that looks like a truth value or a number the one that such a value is printed as? -/
@[mk_iff] structure Lasts (text : String) : Prop where
  truth : ∀ b, truth? text = some b → text = toString b
  integer : ∀ n, truth? text = none → integer? text = some n → text = toString n
  float : ∀ x, truth? text = none → integer? text = none →
    Binary64.ofText? text.toList = some x → text = x.plainText

theorem valueOf_eq (text : String) : valueOf text =
    match truth? text, integer? text, Binary64.ofText? text.toList with
    | some b, _, _ => .bool b
    | none, some n, _ => .int n
    | none, none, some x => .float x
    | none, none, none => .text text := by
  unfold valueOf truth? integer?
  dsimp only
  split_ifs
  · rfl
  · rfl
  · cases (Numeral.signed? text.toList).filter Word.isInteger64 with
    | some n => rfl
    | none => cases Binary64.ofText? text.toList <;> rfl

theorem shown_valueOf_eq_iff (text : String) : shown (valueOf text) = text ↔ Lasts text := by
  rw [valueOf_eq, lasts_iff]
  cases truth? text with
  | some b => simp [shown, eq_comm]
  | none =>
    cases integer? text with
    | some n => simp [shown, eq_comm]
    | none => cases Binary64.ofText? text.toList <;> simp [shown, eq_comm]

/-! Printed values are not empty -/

theorem digitsText_ne_nil (d : Binary64.Digits) : Binary64.digitsText d ≠ [] :=
  List.append_ne_nil_of_right_ne_nil _ Nat.toDigits_ne_nil

theorem positional_ne_nil (d : Binary64.Digits) : Binary64.positional d ≠ [] := by
  unfold Binary64.positional
  dsimp only
  split_ifs
  · exact List.cons_ne_nil _ _
  · exact List.append_ne_nil_of_left_ne_nil (digitsText_ne_nil d) _
  · exact List.append_ne_nil_of_right_ne_nil _ (List.cons_ne_nil _ _)

theorem ofList_ne_empty {s : List Char} (h : s ≠ []) : String.ofList s ≠ "" := by
  simpa using h

theorem plainText_ne_empty (x : Binary64) : x.plainText ≠ "" := by
  cases x with
  | nan => decide
  | infinite negative => cases negative <;> decide
  | finite negative mantissa exponent =>
    refine ofList_ne_empty ?_
    split_ifs
    · exact List.cons_ne_nil _ _
    · exact List.cons_ne_nil _ _
    · exact List.cons_ne_nil _ _
    · exact positional_ne_nil _

theorem toString_ne_empty (n : Int) : toString n ≠ "" := by
  cases n with
  | ofNat m => exact ofList_ne_empty Nat.toDigits_ne_nil
  | negSucc m =>
    change "-" ++ Nat.repr (m + 1) ≠ ""
    simp

theorem toString_bool_ne_empty (b : Bool) : toString b ≠ "" := by
  cases b <;> decide

theorem shown_valueOf_ne_empty {text : String} (h : text ≠ "") : shown (valueOf text) ≠ "" := by
  rw [valueOf_eq]
  split
  · exact toString_bool_ne_empty _
  · exact toString_ne_empty _
  · exact plainText_ne_empty _
  · exact h

/-! Settings from the environment -/

variable {k : Setting} {environment : List (String × String)} {text : String}

theorem words_of_other {other : Setting} {entry : Place × Given} (hne : k ≠ other)
    (h : ofVariable? other.variableName text = some entry) : k.words entry = [] := by
  obtain rfl := Option.some.inj ((ofVariable?_variableName other text).symm.trans h)
  rw [words_variable, if_neg hne]

structure Sets (environment : List (String × String)) (k : Setting) (text : String) : Prop where
  mem : (k.variableName, text) ∈ environment
  alone : ∀ given ∈ environment, ∀ entry, ofVariable? given.1 given.2 = some entry →
    k.words entry ≠ [] → given = (k.variableName, text)

theorem Sets.eq_of_mem_words (h : Sets environment k text) {word : Word}
    (hword : word ∈ (Layer.ofEnvironment environment).flatMap k.words) :
    word = some ([], .scalar .environment (valueOf text)) := by
  obtain ⟨entry, hentry, hword⟩ := List.mem_flatMap.mp hword
  obtain ⟨given, hgiven, hof⟩ := List.mem_filterMap.mp hentry
  obtain rfl := h.alone given hgiven entry hof (List.ne_nil_of_mem hword)
  obtain rfl := Option.some.inj ((ofVariable?_variableName k text).symm.trans hof)
  rw [words_variable, if_pos rfl] at hword
  exact List.mem_singleton.mp hword

theorem Sets.lastWord? (h : Sets environment k text) :
    k.lastWord? (.ofEnvironment environment) =
      some (some ([], .scalar .environment (valueOf text))) := by
  have hmem : some ([], .scalar .environment (valueOf text)) ∈
      (Layer.ofEnvironment environment).flatMap k.words := by
    refine List.mem_flatMap.mpr ⟨_, List.mem_filterMap.mpr
      ⟨_, h.mem, ofVariable?_variableName k text⟩, ?_⟩
    rw [words_variable, if_pos rfl]
    exact List.mem_singleton_self _
  unfold Setting.lastWord?
  cases hlast : ((Layer.ofEnvironment environment).flatMap k.words).getLast? with
  | none => exact absurd (List.getLast?_eq_none_iff.mp hlast) (List.ne_nil_of_mem hmem)
  | some word => rw [h.eq_of_mem_words (List.mem_of_getLast? hlast)]

theorem value?_of_setting? {root v : Given} (h : root.setting? k = some v) :
    root.value? k = some v := by
  rw [value?_of_isKeyed, h]
  intro inner hinner
  cases inner with
  | list =>
    rw [Given.setting?, hinner] at h
    cases h
  | _ => rfl

variable {sources : Sources} {user folder : Layer}

theorem Sets.value? (huser : fileLayer sources.userFile = .ok user)
    (hfolder : fileLayer sources.folderFile = .ok folder)
    (h : Sets sources.environment k text) :
    (layAll [user, folder, .ofEnvironment sources.environment]).value? k =
      some (.scalar .environment (valueOf text)) := by
  refine value?_of_setting? ?_
  rw [setting?_layAll (isPlaced_of_mem_sources huser hfolder)]
  refine merged?_of_given ?_ rfl
  rw [Setting.highestWord?, h.lastWord?, Option.some_or]

theorem fits_scalar (hk : k = .clientId ∨ k = .clientSecret) (origin : Origin) (v : Scalar) :
    k.fits (.scalar origin v) = true := by
  have htext : (Given.scalar origin v).fitsText = true := by
    rw [fitsText_of_ne_gap Given.noConfusion, text_scalar]
    rfl
  rcases hk with rfl | rfl
  · exact htext
  · exact htext

/-- The credential has the printed values of its halves, and these are what was given only if both
halves last. -/
theorem load_credential_of_environment (sources : Sources) {id secret : String}
    (huser : fileLayer sources.userFile = .ok user)
    (hfolder : fileLayer sources.folderFile = .ok folder)
    (hid : Sets sources.environment .clientId id)
    (hsecret : Sets sources.environment .clientSecret secret) (hid_ne : id ≠ "")
    (hsecret_ne : secret ≠ "")
    (hsections : ∀ k : Setting, IsSection (under? k.sectionName
      (layAll [user, folder, .ofEnvironment sources.environment]).entries))
    (hfits : ∀ k : Setting, k ≠ .clientId → k ≠ .clientSecret → ∀ v,
      (layAll [user, folder, .ofEnvironment sources.environment]).value? k = some v →
        k.fits v = true) :
    (load sources).appCredential = some (.app (shown (valueOf id)) (shown (valueOf secret))) ∧
    ((load sources).appCredential = some (.app id secret) ↔ Lasts id ∧ Lasts secret) := by
  have hidValue := hid.value? huser hfolder
  have hsecretValue := hsecret.value? huser hfolder
  have hreadable : IsReadable (layAll [user, folder, .ofEnvironment sources.environment]) := by
    refine ⟨hsections, fun k v hv => ?_⟩
    -- the two halves are scalars of the environment, which fit whatever they look like
    by_cases hk : k = .clientId ∨ k = .clientSecret
    · have hscalar : ∃ text, v = .scalar .environment (valueOf text) := by
        rcases hk with rfl | rfl
        · exact ⟨id, Option.some.inj (hv.symm.trans hidValue)⟩
        · exact ⟨secret, Option.some.inj (hv.symm.trans hsecretValue)⟩
      obtain ⟨text, rfl⟩ := hscalar
      exact fits_scalar hk _ _
    · obtain ⟨hnot, hnotSecret⟩ := not_or.mp hk
      exact hfits k hnot hnotSecret v hv
  have hload := load_of_isReadable huser hfolder hreadable
  have hcredential : (load sources).appCredential =
      some (.app (shown (valueOf id)) (shown (valueOf secret))) := by
    have hclientId : (load sources).clientId = some (shown (valueOf id)) := by
      rw [hload, ofValues, hidValue, Option.bind_some, text_scalar, toOption_ok]
    have hclientSecret : (load sources).clientSecret = some (shown (valueOf secret)) := by
      rw [hload, ofValues, hsecretValue, Option.bind_some, text_scalar, toOption_ok]
    rw [appCredential, hclientId, hclientSecret]
    exact if_neg (not_or_intro (shown_valueOf_ne_empty hid_ne) (shown_valueOf_ne_empty hsecret_ne))
  refine ⟨hcredential, ?_⟩
  rw [hcredential, Option.some.injEq, Credential.app.injEq, shown_valueOf_eq_iff,
    shown_valueOf_eq_iff]

/-- A client id with zeros in front loses them. -/
theorem load_credential_of_environment_zeros :
    (load ⟨none, none, [("STARFEED_GITHUB__CLIENT_ID", "007"),
      ("STARFEED_GITHUB__CLIENT_SECRET", "s3cret")]⟩).appCredential = some (.app "7" "s3cret") := by
  let sources : Sources := ⟨none, none,
    [("STARFEED_GITHUB__CLIENT_ID", "007"), ("STARFEED_GITHUB__CLIENT_SECRET", "s3cret")]⟩
  have hid : Sets sources.environment .clientId "007" := by
    refine ⟨List.mem_cons_self, List.forall_mem_cons.mpr ⟨fun _ _ _ => rfl,
      List.forall_mem_singleton.mpr fun entry hof h => ?_⟩⟩
    exact absurd (words_of_other (by decide : Setting.clientId ≠ .clientSecret) hof) h
  have hsecret : Sets sources.environment .clientSecret "s3cret" := by
    refine ⟨List.mem_cons_of_mem _ List.mem_cons_self, List.forall_mem_cons.mpr
      ⟨fun entry hof h => ?_, List.forall_mem_singleton.mpr fun _ _ _ => rfl⟩⟩
    exact absurd (words_of_other (by decide : Setting.clientSecret ≠ .clientId) hof) h
  have henvironment : Layer.ofEnvironment sources.environment =
      [([.key "github", .key "client_id"], .scalar .environment (valueOf "007")),
        ([.key "github", .key "client_secret"], .scalar .environment (valueOf "s3cret"))] := rfl
  have hcredential := load_credential_of_environment sources rfl rfl hid hsecret (by decide)
    (by decide) (fun k inner h => by rw [henvironment] at h; cases k <;> cases h <;> rfl)
    (fun k hk hk' v hv => by rw [henvironment] at hv; cases k <;> cases hv <;> contradiction)
  have hshown : shown (valueOf "007") = "7" ∧ shown (valueOf "s3cret") = "s3cret" := by
    decide +kernel
  rw [← hshown.1, ← hshown.2]
  exact hcredential.1

end ReleaseTracker.Settings
