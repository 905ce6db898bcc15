import ReleaseTracker.Proofs.GitHub.Disappearance

/-! What a response to a query comes to. It grants a listing, or it disowns what the listing would
belong to, or it cannot be read (`connection_sorts`). What a page says of the listing after it is
kept apart from its items (`Report`). -/

namespace ReleaseTracker.GitHub
open Json

theorem Reply.read_map {α β : Type} (reply : Reply) (resource : String) (read : Json → Option α)
    (f : α → β) : reply.read resource (fun v => (read v).map f) =
      (reply.read resource read).map f := by
  cases reply with
  | failed message => rfl
  | received status body =>
    have hfront : (body.front?.bind fun v => (read v).map f) = (body.front?.bind read).map f := by
      cases body.front? <;> rfl
    simp only [Reply.read, hfront]
    split_ifs
    · cases body.front?.bind read <;> rfl
    · cases errorMessage? body <;> rfl

theorem Reply.read_ok_iff {α : Type} {reply : Reply} {resource : String} {read : Json → Option α}
    {a : α} : reply.read resource read = .ok a ↔ reply.Carries fun v => read v = some a := by
  constructor
  · intro h
    unfold Reply.read at h
    split at h
    · cases h
    · rename_i status body
      split_ifs at h with hstatus
      · split at h
        · rename_i value hvalue
          cases h
          obtain ⟨v, hfront, hread⟩ := Option.bind_eq_some_iff.mp hvalue
          exact ⟨status, body, v, rfl, hstatus, hfront, hread⟩
        · cases h
      · split at h <;> cases h
  · exact fun h => h.read_eq (fun _ => id) resource

theorem Reply.read_notFound_iff {α : Type} {reply : Reply} {resource : String}
    {read : Json → Option α} :
    (∃ e, reply.read resource read = .error e ∧ e.isNotFound = true) ↔
      ∃ body message, reply = .received 404 body ∧ errorMessage? body = some message := by
  constructor
  · rintro ⟨e, hread, hgone⟩
    have hremoved : e.isRemoved = true := by
      obtain ⟨resource, rfl⟩ := ApiError.isNotFound_iff.mp hgone
      rfl
    obtain ⟨status, body, message, rfl, hmessage, hstatus⟩ :=
      Reply.read_gone_iff.mp ⟨e, hread, hremoved⟩
    have herror : e = .ofStatus status resource message := by
      simpa [Reply.read, isSuccess_eq_false hstatus, hmessage] using hread.symm
    obtain rfl | rfl | ⟨rfl, hblocked, hlimited, habuse⟩ := hstatus
    · exact ⟨body, message, rfl, hmessage⟩
    · rw [herror] at hgone
      cases hgone
    · have hspared : ApiError.mentions message "rate limit" = false ∧
          ApiError.mentions message "abuse" = false := by
        constructor <;> rw [Bool.eq_false_iff, ne_eq, ApiError.mentions_iff] <;> assumption
      have hmentions : ApiError.mentions message "access blocked" = true :=
        ApiError.mentions_iff.mpr hblocked
      rw [herror] at hgone
      simp [ApiError.ofStatus, hspared, hmentions, ApiError.isNotFound] at hgone
  · rintro ⟨body, message, rfl, hmessage⟩
    refine ⟨.notFound resource, ?_, rfl⟩
    have hstatus : isSuccess 404 = false := rfl
    simp [Reply.read, hstatus, hmessage, ApiError.ofStatus]

theorem Reply.read_success_error {α : Type} {status : Nat} {body : Body} {resource : String}
    {read : Json → Option α} {e : ApiError} (hstatus : isSuccess status = true)
    (h : Reply.read resource read (.received status body) = .error e) :
    ∃ message, e = .decode message := by
  rw [Reply.read, if_pos hstatus] at h
  cases hread : body.front?.bind read with
  | none =>
    rw [hread] at h
    exact ⟨_, (Except.error.inj h).symm⟩
  | some value =>
    rw [hread] at h
    cases h

namespace GraphQl

variable {α β : Type} {resource root name : String} {read : Json → Option α} {response : Json}

/-! Responses -/

def Quiet (response : Json) : Prop :=
  ∀ errors, response.get? "errors" = some (.arr errors) → errors = []

/-- The response says that what was asked for is not there, or it gives nothing in its place. -/
inductive Disowns (root : String) (response : Json) : Prop
  | said {errors : List Json} {e : Json} (reported : response.get? "errors" = some (.arr errors))
      (mem : e ∈ errors) (type_eq : e.get? "type" = some (.str "NOT_FOUND"))
  | null {data : Json} (quiet : Quiet response) (given : response.get? "data" = some data)
      (null : data.get? root = some .null)
  | missing (quiet : Quiet response)
      (missing : (response.get? "data").bind (·.get? root) = none)

structure Grants (root name : String) (read : Json → Option α) (response : Json) (listing : α) :
    Prop where
  quiet : Quiet response
  given : ∃ data found listed, response.get? "data" = some data ∧ data.get? root = some found ∧
    found.get? name = some listed ∧ read listed = some listing

theorem reported_of_arr {errors : List Json} (h : response.get? "errors" = some (.arr errors)) :
    reported response = errors := by
  rw [reported, h]
  rfl

theorem reported_eq_nil_iff : reported response = [] ↔ Quiet response := by
  constructor
  · intro hnone errors herrors
    exact (reported_of_arr herrors).symm.trans hnone
  · intro hquiet
    unfold reported
    cases herrors : response.get? "errors" with
    | none => rfl
    | some v =>
      cases v with
      | arr errors => exact hquiet errors herrors
      | _ => rfl

theorem arr_of_reported (h : reported response ≠ []) :
    response.get? "errors" = some (.arr (reported response)) := by
  unfold reported at h ⊢
  generalize response.get? "errors" = v? at h ⊢
  rcases v? with _ | ⟨_ | _ | _ | _ | _ | errors | _ | _⟩ <;> first | rfl | exact absurd rfl h

theorem bind_str?_eq_some_iff {v? : Option Json} {s : String} :
    v?.bind str? = some s ↔ v? = some (.str s) := by
  rcases v? with _ | ⟨_ | _ | _ | _ | _ | _ | _ | _⟩ <;> simp [str?]

theorem connection_of_reported (h : reported response ≠ []) :
    connection resource root name read response =
      .error (reportedError resource (reported response)) := by
  unfold connection
  split
  · rename_i hnone
    exact absurd hnone h
  · rfl

theorem connection_of_quiet (h : Quiet response) : connection resource root name read response =
    match ((response.get? "data").bind (·.get? root)).filter (!·.isNull) with
    | none => .error (.notFound resource)
    | some found =>
      match found.get? name with
      | none => .error (.decode ("missing " ++ root ++ "." ++ name ++ " in response"))
      | some v =>
        match read v with
        | some listing => .ok listing
        | none => .error (.decode "the listing has another shape") := by
  unfold connection
  split
  · rfl
  · rename_i hsome
    exact absurd (reported_eq_nil_iff.mpr h) hsome

theorem connection_of_disowns (h : Disowns root response) :
    connection resource root name read response = .error (.notFound resource) := by
  cases h with
  | @said errors e hreported hmem htype =>
    have herrors : reported response = errors := reported_of_arr hreported
    have hsome : reported response ≠ [] := herrors ▸ List.ne_nil_of_mem hmem
    have hany : (errors.any fun e => (e.get? "type").bind str? = some "NOT_FOUND") = true :=
      List.any_eq_true.mpr ⟨e, hmem, by simpa using bind_str?_eq_some_iff.mpr htype⟩
    rw [connection_of_reported hsome, herrors, reportedError, if_pos hany]
  | null hquiet hgiven hnull =>
    rw [connection_of_quiet hquiet, hgiven, Option.bind_some, hnull]
    rfl
  | missing hquiet hmissing =>
    rw [connection_of_quiet hquiet, hmissing]
    rfl

theorem connection_of_grants {listing : α} (h : Grants root name read response listing) :
    connection resource root name read response = .ok listing := by
  obtain ⟨hquiet, data, found, listed, hdata, hfound, hlisted, hread⟩ := h
  have hthere : (some found).filter (!·.isNull) = some found := by
    cases found with
    | obj => rfl
    | _ => cases hlisted
  rw [connection_of_quiet hquiet, hdata, Option.bind_some, hfound, hthere]
  simp only [hlisted, hread]

theorem connection_sorts (resource root name : String) (read : Json → Option α)
    (response : Json) :
    (∃ listing, connection resource root name read response = .ok listing ∧
      Grants root name read response listing) ∨
    (connection resource root name read response = .error (.notFound resource) ∧
      Disowns root response) ∨
    ∃ message, connection resource root name read response = .error (.decode message) := by
  by_cases hquiet : Quiet response
  -- without errors, it is decided by how far the listing is there
  · have hconnection : connection resource root name read response = _ :=
      connection_of_quiet hquiet
    cases hdata : response.get? "data" with
    | none =>
      have hdisowns : Disowns root response := .missing hquiet (by rw [hdata]; rfl)
      exact .inr (.inl ⟨connection_of_disowns hdisowns, hdisowns⟩)
    | some data =>
    cases hfound : data.get? root with
    | none =>
      have hdisowns : Disowns root response :=
        .missing hquiet (by rw [hdata, Option.bind_some, hfound])
      exact .inr (.inl ⟨connection_of_disowns hdisowns, hdisowns⟩)
    | some found =>
    by_cases hnull : found.isNull = true
    · obtain rfl : found = .null := by
        cases found with
        | null => rfl
        | _ => cases hnull
      have hdisowns : Disowns root response := .null hquiet hdata hfound
      exact .inr (.inl ⟨connection_of_disowns hdisowns, hdisowns⟩)
    have hthere : (some found).filter (!·.isNull) = some found := by
      simp [Option.filter, hnull]
    rw [hdata, Option.bind_some, hfound, hthere] at hconnection
    cases hlisted : found.get? name with
    | none =>
      simp only [hlisted] at hconnection
      exact .inr (.inr ⟨_, hconnection⟩)
    | some listed =>
    cases hread : read listed with
    | none =>
      simp only [hlisted, hread] at hconnection
      exact .inr (.inr ⟨_, hconnection⟩)
    | some listing =>
      have hgrants : Grants root name read response listing :=
        ⟨hquiet, data, found, listed, hdata, hfound, hlisted, hread⟩
      exact .inl ⟨listing, connection_of_grants hgrants, hgrants⟩
  · -- errors are reported, and one of them may say that nothing was found
    have hsome : reported response ≠ [] := mt reported_eq_nil_iff.mp hquiet
    have hconnection : connection resource root name read response = _ :=
      connection_of_reported hsome
    by_cases hany : ((reported response).any fun e =>
        (e.get? "type").bind str? = some "NOT_FOUND") = true
    · obtain ⟨e, hmem, htype⟩ := List.any_eq_true.mp hany
      have hdisowns : Disowns root response :=
        .said (arr_of_reported hsome) hmem (bind_str?_eq_some_iff.mp (by simpa using htype))
      exact .inr (.inl ⟨connection_of_disowns hdisowns, hdisowns⟩)
    · rw [reportedError, if_neg hany] at hconnection
      exact .inr (.inr ⟨_, hconnection⟩)

/-! Replies -/

def hear (resource root name : String) (read : Json → Option α) (reply : Reply) :
    Except ApiError α :=
  (Reply.read resource anyValue reply).bind (connection resource root name read)

theorem hear_map (f : α → β) (reply : Reply) :
    hear resource root name (fun v => (read v).map f) reply =
      (hear resource root name read reply).map f := by
  unfold hear
  cases reply.read resource anyValue with
  | error e => rfl
  | ok response =>
    show connection resource root name (fun v => (read v).map f) response =
      (connection resource root name read response).map f
    unfold connection
    split
    · cases ((response.get? "data").bind (·.get? root)).filter (!·.isNull) with
      | none => rfl
      | some found =>
        dsimp only
        cases found.get? name with
        | none => rfl
        | some listed =>
          dsimp only
          cases read listed <;> rfl
    · rfl

theorem anyValue_eq_some_iff {v response : Json} :
    anyValue v = some response ↔ v.isReadable = true ∧ v.canonical = response := by
  simp [anyValue]

theorem hear_of_error {e : ApiError} {reply : Reply}
    (h : reply.read resource anyValue = .error e) :
    hear resource root name read reply = .error e := by
  rw [hear, h]
  rfl

theorem hear_of_ok {reply : Reply} (h : reply.read resource anyValue = .ok response) :
    hear resource root name read reply = connection resource root name read response := by
  rw [hear, h]
  rfl

end GraphQl

def Reply.Disowns (root : String) (reply : Reply) : Prop :=
  reply.Carries fun v => v.isReadable = true ∧ GraphQl.Disowns root v.canonical

def Reply.Grants {α : Type} (root name : String) (read : Json → Option α) (listing : α)
    (reply : Reply) : Prop :=
  reply.Carries fun v => v.isReadable = true ∧ GraphQl.Grants root name read v.canonical listing

namespace GraphQl
variable {α : Type} {resource root name : String} {read : Json → Option α} {reply : Reply}
  {response : Json}

theorem read_anyValue_carries (holds : Json → Prop)
    (hok : reply.read resource anyValue = .ok response) (hholds : holds response) :
    reply.Carries fun v => v.isReadable = true ∧ holds v.canonical := by
  obtain ⟨status, body, v, hreply, hstatus, hfront, hread⟩ := Reply.read_ok_iff.mp hok
  obtain ⟨hreadable, rfl⟩ := anyValue_eq_some_iff.mp hread
  exact ⟨status, body, v, hreply, hstatus, hfront, hreadable, hholds⟩

theorem read_anyValue_of_carries {holds : Json → Prop}
    (h : reply.Carries fun v => v.isReadable = true ∧ holds v.canonical) :
    ∃ response, reply.read resource anyValue = .ok response ∧ holds response :=
  h.read (fun v hv => ⟨v.canonical, anyValue_eq_some_iff.mpr ⟨hv.1, rfl⟩, hv.2⟩) resource

theorem hear_of_disowns (h : reply.Disowns root) :
    hear resource root name read reply = .error (.notFound resource) := by
  obtain ⟨response, hread, hdisowns⟩ := read_anyValue_of_carries h
  rw [hear_of_ok hread, connection_of_disowns hdisowns]

theorem hear_of_grants {listing : α} (h : reply.Grants root name read listing) :
    hear resource root name read reply = .ok listing := by
  obtain ⟨response, hread, hgrants⟩ : ∃ response, reply.read resource anyValue = .ok response ∧
      Grants root name read response listing := read_anyValue_of_carries h
  rw [hear_of_ok hread, connection_of_grants hgrants]

/-- What is heard of a reply: a listing that it grants, that it disowns what was asked for, or an
error that is either its own or says that it cannot be read. -/
theorem hear_sorts (resource root name : String) (read : Json → Option α) (reply : Reply) :
    (∃ listing, hear resource root name read reply = .ok listing ∧
      reply.Grants root name read listing) ∨
    (hear resource root name read reply = .error (.notFound resource) ∧ reply.Disowns root) ∨
    ∃ e, hear resource root name read reply = .error e ∧
      (reply.read resource anyValue = .error e ∨ ∃ message, e = .decode message) := by
  cases hread : reply.read resource anyValue with
  | error e => exact .inr (.inr ⟨e, hear_of_error hread, .inl rfl⟩)
  | ok response =>
    rw [hear_of_ok hread]
    obtain ⟨listing, hok, hgrants⟩ | ⟨hnone, hdisowns⟩ | ⟨message, hdecode⟩ :=
      connection_sorts resource root name read response
    · have hcarries : reply.Grants root name read listing :=
        read_anyValue_carries (Grants root name read · listing) hread hgrants
      exact .inl ⟨listing, hok, hcarries⟩
    · exact .inr (.inl ⟨hnone, read_anyValue_carries _ hread hdisowns⟩)
    · exact .inr (.inr ⟨_, hdecode, .inr ⟨message, rfl⟩⟩)

theorem hear_ok_iff {listing : α} : hear resource root name read reply = .ok listing ↔
    reply.Grants root name read listing := by
  constructor
  · intro h
    obtain ⟨listing', hok, hgrants⟩ | ⟨hnone, -⟩ | ⟨e, herror, -⟩ :=
      hear_sorts resource root name read reply
    · obtain rfl := Except.ok.inj (hok.symm.trans h)
      exact hgrants
    · cases hnone.symm.trans h
    · cases herror.symm.trans h
  · exact hear_of_grants

/-- An error that is no failure to read is heard from a reply that is one by itself, or that disowns
what was asked for. -/
theorem hear_loses_iff {loses : ApiError → Bool}
    (hdecode : ∀ message, loses (.decode message) = false)
    (hnotFound : loses (.notFound resource) = true) :
    (∃ e, hear resource root name read reply = .error e ∧ loses e = true) ↔
      (∃ e, reply.read resource anyValue = .error e ∧ loses e = true) ∨ reply.Disowns root := by
  constructor
  · rintro ⟨e, hheard, hloses⟩
    obtain ⟨listing, hok, -⟩ | ⟨-, hdisowns⟩ | ⟨e', herror, hown | ⟨message, rfl⟩⟩ :=
      hear_sorts resource root name read reply
    · cases hok.symm.trans hheard
    · exact .inr hdisowns
    · obtain rfl := Except.error.inj (herror.symm.trans hheard)
      exact .inl ⟨_, hown, hloses⟩
    · obtain rfl := Except.error.inj (herror.symm.trans hheard)
      rw [hdecode] at hloses
      cases hloses
  · rintro (⟨e, hown, hloses⟩ | hdisowns)
    · exact ⟨e, hear_of_error hown, hloses⟩
    · exact ⟨_, hear_of_disowns hdisowns, hnotFound⟩

theorem hear_success_error {status : Nat} {body : Body} {e : ApiError}
    (hstatus : isSuccess status = true)
    (h : hear resource root name read (.received status body) = .error e) :
    e.isNotFound = true ∨ ∃ message, e = .decode message := by
  obtain ⟨listing, hok, -⟩ | ⟨hnone, -⟩ | ⟨e', herror, hown | hdecode⟩ :=
    hear_sorts resource root name read (.received status body)
  · cases hok.symm.trans h
  · obtain rfl := Except.error.inj (hnone.symm.trans h)
    exact .inl rfl
  · obtain rfl := Except.error.inj (herror.symm.trans h)
    exact .inr (Reply.read_success_error hstatus hown)
  · obtain rfl := Except.error.inj (herror.symm.trans h)
    exact .inr hdecode

theorem hear_notFound_iff {status : Nat} {body : Body}
    (hstatus : isSuccess status = true) :
    (∃ e, hear resource root name read (.received status body) = .error e ∧
      e.isNotFound = true) ↔ Reply.Disowns root (.received status body) := by
  rw [hear_loses_iff (fun _ => rfl) rfl]
  refine or_iff_right ?_
  rintro ⟨e, hown, hgone⟩
  obtain ⟨message, rfl⟩ := Reply.read_success_error hstatus hown
  cases hgone

/-! Pages -/

structure PageInfo where
  hasNext : Bool
  cursor : Option String

def PageInfo.next (info : PageInfo) : Option String := if info.hasNext then info.cursor else none

def pageInfo? (v : Json) : Option PageInfo := do
  let [hasNext, cursor] ← v.columns [field "hasNextPage", field "endCursor"] | none
  return ⟨← required bool? hasNext, ← optional str? cursor⟩

theorem nextCursor?_eq (v : Json) : nextCursor? v = (pageInfo? v).map PageInfo.next := by
  unfold nextCursor? pageInfo?
  rcases v.columns [field "hasNextPage", field "endCursor"] with
    _ | ⟨_ | ⟨hasNext, _ | ⟨cursor, _ | _⟩⟩⟩
  case some.cons.cons.nil =>
    show ((required bool? hasNext).bind fun hasNext => _) =
      ((required bool? hasNext).bind fun hasNext => _).map PageInfo.next
    cases required bool? hasNext with
    | none => rfl
    | some hasNext => cases Json.optional str? cursor <;> rfl
  all_goals rfl

structure Report (α : Type) where
  info : Option PageInfo
  items : List α

def Report.next (report : Report α) : Option String := report.info.bind PageInfo.next

def Report.page (report : Report α) : Page α := ⟨report.items, report.next⟩

def starReport? (v : Json) : Option (Report StarredRepo) := do
  let [info, nodes] ← v.columns [field "pageInfo", field "nodes"] | none
  let info ← required pageInfo? info
  return ⟨some info, ← required (listOf starredRepo?) nodes⟩

theorem starredPage?_eq (v : Json) : starredPage? v = (starReport? v).map Report.page := by
  unfold starredPage? starReport?
  rcases v.columns [field "pageInfo", field "nodes"] with _ | ⟨_ | ⟨info, _ | ⟨nodes, _ | _⟩⟩⟩
  case some.cons.cons.nil =>
    show ((info.bind nextCursor?).bind fun next => _) =
      ((info.bind pageInfo?).bind fun info => _).map Report.page
    cases info with
    | none => rfl
    | some info =>
      rw [Option.bind_some, nextCursor?_eq, Option.bind_some]
      cases pageInfo? info with
      | none => rfl
      | some info => cases required (listOf starredRepo?) nodes <;> rfl
  all_goals rfl

def tagReport? (v : Json) : Option (Report Tag) := do
  let [info, nodes, total] ← v.columns
    [lacking "pageInfo", lacking "nodes", lacking "totalCount"] | none
  let info ← optional pageInfo? info
  let tags ← withDefault [] (listOf tag?) nodes
  let _ ← optional nat64? total
  return ⟨info, tags⟩

theorem tagPage?_eq (v : Json) :
    (tagPage? v).map TagPage.page = (tagReport? v).map Report.page := by
  unfold tagPage? tagReport?
  rcases v.columns [lacking "pageInfo", lacking "nodes", lacking "totalCount"] with
    _ | ⟨_ | ⟨info, _ | ⟨nodes, _ | ⟨total, _ | _⟩⟩⟩⟩
  case some.cons.cons.cons.nil =>
    show ((optional nextCursor? info).bind fun next => _).map TagPage.page =
      ((optional pageInfo? info).bind fun info => _).map Report.page
    have hinfo : optional nextCursor? info =
        (optional pageInfo? info).map (Option.map PageInfo.next) := by
      cases info with
      | none => rfl
      | some v =>
        simp only [Json.optional, nextCursor?_eq]
        split_ifs
        · rfl
        · cases pageInfo? v <;> rfl
    rw [hinfo]
    cases optional pageInfo? info with
    | none => rfl
    | some info =>
    cases withDefault [] (listOf tag?) nodes with
    | none => rfl
    | some tags => cases optional nat64? total <;> cases info <;> rfl
  all_goals rfl

def hearStars (username : String) (reply : Reply) : Except ApiError (Report StarredRepo) :=
  hear ("user " ++ username) "user" "starredRepositories" starReport? reply

def hearTags (fullName : String) (reply : Reply) : Except ApiError (Report Tag) :=
  hear fullName "repository" "refs" tagReport? reply

theorem hear_starredPage (username : String) (reply : Reply) :
    hear ("user " ++ username) "user" "starredRepositories" starredPage? reply =
      (hearStars username reply).map Report.page := by
  rw [funext starredPage?_eq]
  exact hear_map Report.page reply

theorem hear_tagPage (fullName : String) (reply : Reply) :
    (hear fullName "repository" "refs" tagPage? reply).map TagPage.page =
      (hearTags fullName reply).map Report.page := by
  rw [← hear_map, funext tagPage?_eq]
  exact hear_map Report.page reply

end GraphQl
end ReleaseTracker.GitHub
