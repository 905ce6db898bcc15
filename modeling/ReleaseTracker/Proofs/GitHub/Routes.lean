import ReleaseTracker.Proofs.GitHub.Exchanges
import ReleaseTracker.Proofs.Text.Percent

/-! The paths of resources name what they were built for. A path is cut at its slashes into the
names it was built from, each of them escaped, so two lists of names share no path. What belongs to
a repository whose full name holds no slash has no path, and nothing is requested for it. -/

namespace ReleaseTracker
namespace GitHub
open Text

structure Plain (name : String) : Prop where
  stays : name ≠ "." ∧ name ≠ ".."
  complete : ∀ c ∈ name.toList, c ∉ ['\t', '\n', '\r']

instance (name : String) : Decidable (Plain name) :=
  have : Decidable (∀ c ∈ name.toList, c ∉ ['\t', '\n', '\r']) := List.decidableBAll _ _
  decidable_of_iff (_ ∧ _) ⟨fun h => ⟨h.1, h.2⟩, fun h => ⟨h.stays, h.complete⟩⟩

def Route.named (piece : List Char) : String := String.ofList (Utf8.read (Percent.decode piece))

/-- The path leads to some names below the root: it holds nothing that would end it, and its pieces
between slashes stand for the names, octet by octet. -/
structure Route.LeadsTo (path : String) (names : List String) : Prop where
  rooted : path.toList.head? = some '/'
  sent : ∀ c ∈ path.toList, Percent.Sent c
  octets : (splitOn '/' path.toList.tail).map Percent.decode = names.map (Utf8.encode ·.toList)
  pieces : (splitOn '/' path.toList.tail).map Route.named = names

inductive Route.Built : List String → String → Prop
  | ofRepo {owner name : String} {rest : List String} {path : String}
      (hfirst : '/' ∉ owner.toList) (hpath : Route.ofRepo (owner ++ "/" ++ name) rest = .ok path) :
      Built ("repos" :: owner :: name :: rest) path
  | ofUser {username : String} {rest : List String} :
      Built ("users" :: username :: rest) (Route.ofUser username rest)

namespace Route

variable {fullName owner name root target : String} {names others rest : List String}

theorem segment_of_plain (h : Plain name) :
    Percent.segment name.toList = Percent.encode Percent.inSegment name.toList := by
  rw [Percent.segment, List.filter_eq_self.mpr]
  simpa using h.complete

theorem decode_segment (h : Plain name) :
    Percent.decode (Percent.segment name.toList) = Utf8.encode name.toList := by
  rw [segment_of_plain h, Percent.decode_encode (by decide)]

theorem segment_stays (h : Plain name) :
    Percent.segment name.toList ≠ ['.'] ∧ Percent.segment name.toList ≠ ['.', '.'] := by
  have heq {s : String} (hs : Percent.decode s.toList = Utf8.encode s.toList)
      (hsegment : Percent.segment name.toList = s.toList) : name = s := by
    refine String.toList_inj.mp (Utf8.encode_injective ?_)
    rw [← decode_segment h, hsegment, hs]
  constructor
  · exact fun hdot => h.stays.1 (heq (s := ".") (by decide) hdot)
  · exact fun hdots => h.stays.2 (heq (s := "..") (by decide) hdots)

theorem foldl_enter {first : List Char} (hfirst : first ≠ []) {segments : List (List Char)}
    (h : ∀ segment ∈ segments, segment ≠ ['.'] ∧ segment ≠ ['.', '.']) (before : List (List Char)) :
    segments.foldl enter (first :: before) = first :: before ++ segments := by
  induction segments generalizing before with
  | nil => rw [List.foldl_nil, List.append_nil]
  | cons segment segments ih =>
    obtain ⟨hdot, hdots⟩ := h segment (List.mem_cons_self ..)
    have henter : enter (first :: before) segment = first :: (before ++ [segment]) := by
      rw [enter, if_neg hdots, if_neg hdot, if_neg (by simp [hfirst]), List.cons_append]
    rw [List.foldl_cons, henter, ih (fun s hs => h s (List.mem_cons_of_mem _ hs))]
    simp

theorem path_toList (hroot : Percent.segment root.toList ≠ [])
    (h : ∀ name ∈ root :: names, Plain name) :
    (path (root :: names)).toList =
      '/' :: ['/'].intercalate ((root :: names).map fun name => Percent.segment name.toList) := by
  have hkept : ((root :: names).filter fun name => name ≠ "." && name ≠ "..") = root :: names := by
    rw [List.filter_eq_self]
    intro name hname
    simp [(h name hname).stays]
  obtain ⟨hdot, hdots⟩ := segment_stays (h root (List.mem_cons_self ..))
  have henter : enter [] (Percent.segment root.toList) = [Percent.segment root.toList] := by
    rw [enter, if_neg hdots, if_neg hdot, if_neg (by simp), List.nil_append]
  have hrest : ∀ segment ∈ names.map fun name => Percent.segment name.toList,
      segment ≠ ['.'] ∧ segment ≠ ['.', '.'] := by
    intro segment hsegment
    obtain ⟨name, hname, rfl⟩ := List.mem_map.mp hsegment
    exact segment_stays (h name (List.mem_cons_of_mem _ hname))
  simp only [path, hkept, String.toList_ofList, List.map_cons, List.foldl_cons, henter,
    foldl_enter hroot hrest, List.singleton_append]

theorem mem_intercalate {mark c : Char} : ∀ {pieces : List (List Char)},
    c ∈ [mark].intercalate pieces → c = mark ∨ ∃ piece ∈ pieces, c ∈ piece
  | [], h => by cases h
  | [piece], h => .inr ⟨piece, List.mem_singleton_self _, by rwa [List.intercalate_singleton] at h⟩
  | piece :: next :: pieces, h => by
    rw [List.intercalate_cons_cons, List.mem_append, List.mem_append, List.mem_singleton] at h
    obtain (hpiece | hmark) | hrest := h
    · exact .inr ⟨piece, List.mem_cons_self .., hpiece⟩
    · exact .inl hmark
    · obtain hmark | ⟨other, hother, hc⟩ := mem_intercalate hrest
      · exact .inl hmark
      · exact .inr ⟨other, List.mem_cons_of_mem _ hother, hc⟩

theorem path_leadsTo (hroot : Percent.segment root.toList ≠ [])
    (h : ∀ name ∈ root :: names, Plain name) : LeadsTo (path (root :: names)) (root :: names) := by
  have hpath := path_toList hroot h
  have hpieces : splitOn '/' (path (root :: names)).toList.tail =
      (root :: names).map fun name => Percent.segment name.toList := by
    rw [hpath, List.tail_cons, splitOn_intercalate (by simp)]
    intro piece hpiece hslash
    obtain ⟨name, -, rfl⟩ := List.mem_map.mp hpiece
    exact (Percent.sent_of_mem_segment hslash).2 rfl
  refine ⟨by rw [hpath]; rfl, ?_, ?_, ?_⟩
  · intro c hc
    rw [hpath] at hc
    obtain rfl | hc := List.mem_cons.mp hc
    · unfold Percent.Sent
      decide
    obtain rfl | ⟨piece, hpiece, hc⟩ := mem_intercalate hc
    · unfold Percent.Sent
      decide
    · obtain ⟨name, -, rfl⟩ := List.mem_map.mp hpiece
      exact (Percent.sent_of_mem_segment hc).1
  · rw [hpieces, List.map_map]
    exact List.map_congr_left fun name hname => decode_segment (h name hname)
  · rw [hpieces, List.map_map]
    refine (List.map_congr_left fun name hname => ?_).trans (List.map_id _)
    rw [Function.comp_apply, named, decode_segment (h name hname), Utf8.read_encode,
      String.ofList_toList, id]

theorem ofRepo_of_slash (hfirst : '/' ∉ owner.toList) (name : String) (rest : List String) :
    ofRepo (owner ++ "/" ++ name) rest = .ok (path ("repos" :: owner :: name :: rest)) := by
  have hname : (owner ++ "/" ++ name).toList = owner.toList ++ '/' :: name.toList := by simp
  rw [ofRepo, ownerAndName, hname, splitOnce_append hfirst]
  simp only [String.ofList_toList]
  rfl

theorem ofRepo_of_no_slash (h : '/' ∉ fullName.toList) (rest : List String) :
    ofRepo fullName rest = .error (.decode ("invalid repository name: " ++ fullName)) := by
  rw [ofRepo, ownerAndName, splitOnce_eq_none h]
  rfl

theorem Built.leadsTo (h : Built names target) (hplain : ∀ name ∈ names, Plain name) :
    LeadsTo target names := by
  cases h with
  | ofRepo hfirst hpath =>
    rw [ofRepo_of_slash hfirst] at hpath
    rw [← Except.ok.inj hpath]
    exact path_leadsTo (by decide) hplain
  | ofUser => exact path_leadsTo (by decide) hplain

end Route

/-- What a call gets of a repository by its path: the repository's full name, the names below it,
and the parameters. Queries have no path. -/
def ApiCall.resource? (listing : ListingKind) : ApiCall → Option (String × List String × String)
  | .hasTags fullName =>
    if listing = .rest then some (fullName, ["tags"], "?per_page=1&page=1") else none
  | .allTags fullName =>
    if listing = .rest then some (fullName, ["git", "refs", "tags"], "") else none
  | .releaseByTag fullName tag => some (fullName, ["releases", "tags", tag], "")
  | .annotatedTag fullName sha => some (fullName, ["git", "tags", sha], "")
  | .commit fullName sha => some (fullName, ["git", "commits", sha], "")
  | .blob fullName sha => some (fullName, ["git", "blobs", sha], "")
  | .remainingCalls | .starredPage _ _ _ | .renderMarkdown _ _ => none

variable {listing : ListingKind} {budget : Nat} {call : ApiCall}
  {fullName parameters path : String} {names : List String}
  {exchanges : List (Answered Exchange)} {answer : Except ApiError call.Result}

theorem ApiCall.program_of_resource (budget : Nat)
    (h : call.resource? listing = some (fullName, names, parameters)) :
    ∃ (α : Type) (read : Json → Option α) (give : Except ApiError α → Except ApiError call.Result),
      (∀ message, give (.error (.decode message)) = .error (.decode message)) ∧
      call.program listing budget =
        (Rest.getOfRepo fullName names parameters read).bind fun reply => .done (give reply) := by
  cases call with
  | releaseByTag =>
    cases h
    exact ⟨_, _, foundOrNone, fun _ => rfl, rfl⟩
  | hasTags =>
    cases listing <;> cases h
    exact ⟨_, _, id, fun _ => rfl, (Program.bind_done _).symm⟩
  | allTags =>
    cases listing <;> cases h
    exact ⟨_, _, id, fun _ => rfl, (Program.bind_done _).symm⟩
  | annotatedTag =>
    cases h
    exact ⟨_, _, id, fun _ => rfl, (Program.bind_done _).symm⟩
  | commit =>
    cases h
    exact ⟨_, _, id, fun _ => rfl, (Program.bind_done _).symm⟩
  | blob =>
    cases h
    exact ⟨_, _, (·.bind RawBlob.decode), fun _ => rfl, rfl⟩
  | remainingCalls => cases h
  | starredPage => cases h
  | renderMarkdown => cases h

theorem ApiCall.Over.requests_path (hover : call.Over listing budget exchanges answer)
    (h : call.resource? listing = some (fullName, names, parameters))
    (hpath : Route.ofRepo fullName names = .ok path) :
    exchanges.map requestOf = [⟨.get, path ++ parameters, none⟩] := by
  obtain ⟨α, read, give, -, hprogram⟩ := ApiCall.program_of_resource budget h
  rw [ApiCall.Over, hprogram, Rest.getOfRepo, hpath] at hover
  obtain ⟨reply, rfl, -⟩ := runs_once_iff.mp hover
  rfl

theorem ApiCall.Over.requests_nothing (hover : call.Over listing budget exchanges answer)
    (h : call.resource? listing = some (fullName, names, parameters))
    (hslash : '/' ∉ fullName.toList) :
    exchanges = [] ∧ answer = .error (.decode ("invalid repository name: " ++ fullName)) := by
  obtain ⟨α, read, give, hgive, hprogram⟩ := ApiCall.program_of_resource budget h
  rw [ApiCall.Over, hprogram, Rest.getOfRepo, Route.ofRepo_of_no_slash hslash] at hover
  obtain ⟨hnone, hanswer⟩ := runs_answered_iff.mp hover
  exact ⟨hnone, hanswer.trans (hgive _)⟩

def ApiCall.request? (call : ApiCall) : Option Request :=
  match call.resource? .rest with
  | some (fullName, names, parameters) =>
    (Route.ofRepo fullName names).toOption.map fun path => ⟨.get, path ++ parameters, none⟩
  | none =>
    match call with
    | .remainingCalls => some ⟨.get, "/rate_limit", none⟩
    | .starredPage username cursor perPage =>
      some (Rest.starredRequest username (Rest.pageNumber cursor) perPage)
    | .renderMarkdown text context => some ⟨.post, "/markdown",
        some (.obj [("text", .str text), ("mode", .str "gfm"), ("context", .str context)])⟩
    | _ => none

theorem Route.ofRepo_isOk (hslash : '/' ∈ fullName.toList) (rest : List String) :
    ∃ path, Route.ofRepo fullName rest = .ok path := by
  obtain ⟨owner, name, -, rfl, hfirst⟩ := Route.ownerAndName_of_slash hslash
  exact ⟨_, Route.ofRepo_of_slash hfirst name rest⟩

theorem ApiCall.request?_of_slash (hslash : '/' ∈ fullName.toList)
    (h : call.resource? .rest = some (fullName, names, parameters)) :
    ∃ request, call.request? = some request := by
  obtain ⟨path, hpath⟩ := Route.ofRepo_isOk hslash names
  simp only [ApiCall.request?, h, hpath]
  exact ⟨_, rfl⟩

theorem ApiCall.Over.requests (hover : call.Over .rest budget exchanges answer) :
    exchanges.map requestOf = call.request?.toList := by
  cases hresource : call.resource? .rest with
  | some resource =>
    obtain ⟨fullName, names, parameters⟩ := resource
    by_cases hslash : '/' ∈ fullName.toList
    · obtain ⟨path, hpath⟩ := Route.ofRepo_isOk hslash names
      simp only [ApiCall.request?, hresource, hpath]
      exact hover.requests_path hresource hpath
    · simp only [ApiCall.request?, hresource, Route.ofRepo_of_no_slash hslash]
      rw [(hover.requests_nothing hresource hslash).1]
      rfl
  | none =>
    cases call with
    | remainingCalls | starredPage | renderMarkdown =>
      obtain ⟨reply, rfl, -⟩ := runs_once_iff.mp hover
      rfl
    | _ => cases hresource

/-- A path leads to exactly the names that it was built for, so two lists of names never share one.
A call on a resource of a repository requests the path of that resource. When the full name holds
no slash, there is no path, and the call fails without a request. -/
theorem Route.path_recovers_names :
    (∀ owner name rest, '/' ∉ owner.toList →
      ∃ path, Route.ofRepo (owner ++ "/" ++ name) rest = .ok path) ∧
    (∀ names path, Built names path → (∀ name ∈ names, Plain name) → LeadsTo path names) ∧
    (∀ names others path, Built names path → Built others path →
      (∀ name ∈ names, Plain name) → (∀ name ∈ others, Plain name) → names = others) ∧
    (∀ fullName rest, '/' ∉ fullName.toList →
      Route.ofRepo fullName rest = .error (.decode ("invalid repository name: " ++ fullName))) ∧
    ∀ (listing : ListingKind) (budget : Nat) (call : ApiCall) (fullName : String)
      (names : List String) (parameters : String) (exchanges : List (Answered Exchange))
      (answer : Except ApiError call.Result),
      call.resource? listing = some (fullName, names, parameters) →
      call.Over listing budget exchanges answer →
      (∀ owner name, '/' ∉ owner.toList → fullName = owner ++ "/" ++ name →
        ∃ path, Built ("repos" :: owner :: name :: names) path ∧
          exchanges.map requestOf = [⟨.get, path ++ parameters, none⟩]) ∧
      ('/' ∉ fullName.toList →
        exchanges = [] ∧
        answer = .error (.decode ("invalid repository name: " ++ fullName))) := by
  refine ⟨fun owner name rest hfirst => ⟨_, ofRepo_of_slash hfirst name rest⟩,
    fun names path hbuilt hplain => hbuilt.leadsTo hplain, ?_,
    fun fullName rest hslash => ofRepo_of_no_slash hslash rest, ?_⟩
  · intro names others path hnames hothers hplain hplain'
    rw [← (hnames.leadsTo hplain).pieces, (hothers.leadsTo hplain').pieces]
  · intro listing budget call fullName names parameters exchanges answer hresource hover
    refine ⟨?_, fun hslash => hover.requests_nothing hresource hslash⟩
    rintro owner name hfirst rfl
    have hpath := ofRepo_of_slash hfirst name names
    exact ⟨_, .ofRepo hfirst hpath, hover.requests_path hresource hpath⟩

theorem Route.path_of_escaped_tag :
    LeadsTo "/repos/octo/a%2Fp/releases/tags/100%25%3F%252F%C3%A9"
      ["repos", "octo", "a/p", "releases", "tags", "100%?%2Fé"] := by
  have hpath : Route.ofRepo ("octo" ++ "/" ++ "a/p") ["releases", "tags", "100%?%2Fé"] =
      .ok "/repos/octo/a%2Fp/releases/tags/100%25%3F%252F%C3%A9" := by decide
  exact path_recovers_names.2.1 _ _ (.ofRepo (by decide) hpath) (by decide)

end GitHub
end ReleaseTracker
