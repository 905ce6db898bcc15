import ReleaseTracker.Proofs.GitHub.Exchanges
import ReleaseTracker.Proofs.Text.Base64

/-! Files as GitHub sends them. Their contents come in Base64 that is broken into lines at will, and
each text of that kind has one reading. -/

namespace ReleaseTracker.GitHub
open Json Text

inductive Stands : String → Option Json → Prop
  | given (text : String) : Stands text (some (.str text))
  | absent : Stands "" none

structure IsFile (size : Nat) (content encoding : String) (v : Json) : Prop where
  fits : Word.isNatural64 size = true
  columns : ∃ contentColumn encodingColumn, Stands content contentColumn ∧
    Stands encoding encodingColumn ∧ v.Holds [("size", some (.int size)),
      ("content", contentColumn), ("encoding", encodingColumn)]

variable {size : Nat} {content encoding resource : String} {v : Json} {reply : Reply}

theorem Stands.read {text : String} {column : Option Json} (h : Stands text column) :
    withDefault "" str? column = some text := by
  cases h <;> rfl

theorem IsFile.read (h : IsFile size content encoding v) :
    RawBlob.ofJson? v = some ⟨size, content, encoding⟩ := by
  obtain ⟨hsize, contentColumn, encodingColumn, hcontent, hencoding, hfields⟩ := h
  rw [RawBlob.ofJson?, columns_of_holds hfields rfl]
  simp only [List.map_cons, List.map_nil, Option.bind_eq_bind, Option.bind_some, required_some,
    nat64?_natCast hsize, hcontent.read, hencoding.read]
  rfl

theorem ApiCall.Over.reads_blob {listing : ListingKind} {budget : Nat} {fullName sha : String}
    {request : Request} {answer : Except ApiError Blob}
    (h : (ApiCall.blob fullName sha).Over listing budget [⟨request, reply⟩] answer)
    (hfile : reply.Carries (IsFile size content encoding)) :
    answer = RawBlob.decode ⟨size, content, encoding⟩ := by
  change (GitHub.blob fullName sha).Runs _ _ _ _ _ at h
  unfold GitHub.blob Rest.getOfRepo at h
  cases hpath : Route.ofRepo fullName ["git", "blobs", sha] with
  | ok path =>
    rw [hpath] at h
    obtain ⟨_, hexchange, hanswer⟩ := runs_once_iff.mp h
    obtain ⟨rfl, rfl⟩ := hexchange
    rw [hanswer, hfile.read_eq fun _ => IsFile.read]
    rfl
  | error e =>
    rw [hpath] at h
    cases (runs_answered_iff.mp h).1

theorem RawBlob.decode_of_base64 {bytes : List UInt8}
    (h : Base64.decode (dropBlanks content.toList) = some bytes) :
    RawBlob.decode ⟨size, content, "base64"⟩ = .ok ⟨size, String.ofList (Utf8.read bytes)⟩ := by
  rw [RawBlob.decode, if_pos rfl, h]

/-- A file in Base64 is read as the octets that it is written for, wherever blanks are put in, and
these octets are read as text. What is the padded form of no octets is not read, and reported as an
invalid encoding, so contents that come to the same octets differ in blanks alone. Any other file
comes as it stands. -/
theorem ApiCall.Over.blob_unwraps_base64 {listing : ListingKind} {budget : Nat}
    {fullName sha : String} {request : Request} {answer : Except ApiError Blob}
    (hover : (ApiCall.blob fullName sha).Over listing budget [⟨request, reply⟩] answer)
    (hfile : reply.Carries (IsFile size content encoding)) :
    (encoding = "base64" →
      (∀ bytes, Spaced (Base64.padded bytes) content.toList →
        answer = .ok ⟨size, String.ofList (Utf8.read bytes)⟩) ∧
      (∀ text, Spaced (Base64.padded (Utf8.encode text.toList)) content.toList →
        answer = .ok ⟨size, text⟩) ∧
      ((∀ bytes, dropBlanks content.toList ≠ Base64.padded bytes) →
        ∃ cause, answer = .error (.decode ("invalid blob encoding: " ++ cause)))) ∧
    (∀ other bytes, Base64.decode (dropBlanks content.toList) = some bytes →
      Base64.decode (dropBlanks other) = some bytes →
      dropBlanks other = dropBlanks content.toList) ∧
    (encoding ≠ "base64" → answer = .ok ⟨size, content⟩) := by
  have hanswer := hover.reads_blob hfile
  refine ⟨?_, fun other bytes h h' => ?_, fun hplain => ?_⟩
  · rintro rfl
    have hread : ∀ bytes, Spaced (Base64.padded bytes) content.toList →
        answer = .ok ⟨size, String.ofList (Utf8.read bytes)⟩ := by
      intro bytes hspaced
      have hwritten := (spaced_padded_iff.mp hspaced).trans (Base64.padded_eq_encode bytes)
      exact hanswer.trans (RawBlob.decode_of_base64 (Base64.decode_eq_some_iff.mpr hwritten))
    refine ⟨hread, fun text hspaced => ?_, fun hnone => ?_⟩
    · rw [hread _ hspaced, Utf8.read_encode, String.ofList_toList]
    · cases hdecode : Base64.decode (dropBlanks content.toList) with
      | none =>
        rw [RawBlob.decode, if_pos rfl, hdecode] at hanswer
        exact ⟨"the contents are not Base64", hanswer⟩
      | some bytes =>
        have hwritten := Base64.decode_eq_some_iff.mp hdecode
        exact absurd (hwritten.trans (Base64.padded_eq_encode bytes).symm) (hnone bytes)
  · rw [Base64.decode_eq_some_iff.mp h, Base64.decode_eq_some_iff.mp h']
  · rwa [RawBlob.decode, if_neg hplain] at hanswer

/-- The contents stand in two lines, with a wide space between the marks, and the last of the four
octets is no text. -/
theorem ApiCall.Over.blob_unwraps_base64_lines :
    let content := "aMOp\n/w=\u2003=\r\n"
    let body : Json := .obj [("encoding", .str "base64"), ("size", .int 4),
      ("content", .str content)]
    Spaced (Base64.padded [0x68, 0xC3, 0xA9, 0xFF]) content.toList ∧
      (ApiCall.blob "octo/app" "b1").Over .rest 0
        [⟨⟨.get, "/repos/octo/app/git/blobs/b1", none⟩, .received 200 (.json body)⟩]
        (.ok ⟨4, "hé\uFFFD"⟩) := by
  intro content body
  have hspaced : Spaced (Base64.padded [0x68, 0xC3, 0xA9, 0xFF]) content.toList :=
    spaced_padded_iff.mpr (by decide)
  have hfile : IsFile 4 content "base64" body :=
    ⟨rfl, _, _, .given _, .given _, Json.holds_obj_iff.mpr (by simp)⟩
  obtain ⟨answer, hover⟩ : ∃ answer, (ApiCall.blob "octo/app" "b1").Over .rest 0
      [⟨⟨.get, "/repos/octo/app/git/blobs/b1", none⟩, .received 200 (.json body)⟩] answer :=
    ⟨_, runs_once_iff.mpr ⟨_, rfl, rfl⟩⟩
  have hread := ((hover.blob_unwraps_base64 ⟨_, _, _, rfl, rfl, rfl, hfile⟩).1 rfl).1 _ hspaced
  have htext : String.ofList (Utf8.read [0x68, 0xC3, 0xA9, 0xFF]) = "hé\uFFFD" := by decide
  rw [htext] at hread
  exact ⟨hspaced, hread ▸ hover⟩

end ReleaseTracker.GitHub
