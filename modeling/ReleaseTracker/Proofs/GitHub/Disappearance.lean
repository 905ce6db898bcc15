import ReleaseTracker.Proofs.GitHub.Servers

/-! The replies that say that something has gone for good, by their status and their message, and
what the listings of a repository's tags make of them. -/

namespace ReleaseTracker

theorem Text.occursIn_iff {pattern s : List Char} : occursIn pattern s = true ↔ pattern <:+: s := by
  induction s with
  | nil => simp [occursIn]
  | cons c rest ih =>
    rw [occursIn, Bool.or_eq_true, List.isPrefixOf_iff_prefix, ih, List.infix_cons_iff]

namespace ApiError

theorem mentions_iff {message text : String} :
    mentions message text = true ↔ text.toList <:+: Text.lowerAscii message.toList :=
  Text.occursIn_iff

theorem isNotFound_iff {e : ApiError} :
    e.isNotFound = true ↔ ∃ resource, e = .notFound resource := by
  cases e <;> simp [isNotFound]

theorem isRemoved_iff {e : ApiError} :
    e.isRemoved = true ↔ ∃ resource, e = .notFound resource ∨ e = .blocked resource := by
  cases e <;> simp [isRemoved]

def SaysGone (status : Nat) (message : String) : Prop :=
  let lower := Text.lowerAscii message.toList
  status = 404 ∨ status = 451 ∨ status = 403 ∧ "access blocked".toList <:+: lower ∧
    ¬ "rate limit".toList <:+: lower ∧ ¬ "abuse".toList <:+: lower

theorem isRemoved_ofStatus_iff {status : Nat} {resource message : String} :
    (ofStatus status resource message).isRemoved = true ↔ SaysGone status message := by
  unfold ofStatus SaysGone
  simp only [← mentions_iff, Bool.and_eq_true, Bool.or_eq_true, decide_eq_true_eq]
  split_ifs with h404 h451 h429 hlimited hblocked
  · simp [isRemoved, h404]
  · simp [isRemoved, h451]
  · simp [isRemoved, h429]
  · -- a limit that was reached is no removal, whatever else the message says
    simp only [isRemoved, Bool.false_eq_true, false_iff]
    tauto
  · simp only [isRemoved, true_iff]
    tauto
  · simp only [isRemoved, Bool.false_eq_true, false_iff]
    tauto

end ApiError

namespace GitHub
open Program

def Reply.SaysGone (reply : Reply) : Prop :=
  ∃ status body message, reply = .received status body ∧ errorMessage? body = some message ∧
    ApiError.SaysGone status message

theorem isSuccess_eq_false {status : Nat} {message : String}
    (h : ApiError.SaysGone status message) : isSuccess status = false := by
  obtain rfl | rfl | ⟨rfl, -⟩ := h <;> rfl

theorem Reply.read_gone_iff {α : Type} {reply : Reply} {resource : String}
    {read : Json → Option α} :
    (∃ e, reply.read resource read = .error e ∧ e.isRemoved = true) ↔ reply.SaysGone := by
  constructor
  · rintro ⟨e, hread, hremoved⟩
    unfold Reply.read at hread
    split at hread
    · cases hread
      cases hremoved
    · rename_i status body
      split_ifs at hread
      · split at hread
        · cases hread
        · cases hread
          cases hremoved
      split at hread
      · rename_i message hmessage
        cases hread
        exact ⟨status, body, message, rfl, hmessage, ApiError.isRemoved_ofStatus_iff.mp hremoved⟩
      · cases hread
        cases hremoved
  · rintro ⟨status, body, message, rfl, hmessage, hgone⟩
    refine ⟨.ofStatus status resource message, ?_, ApiError.isRemoved_ofStatus_iff.mpr hgone⟩
    simp [Reply.read, isSuccess_eq_false hgone, hmessage]

namespace Server
variable {α : Type} {server : Server} {fullName : String} {budget : Nat}

/-- The reply to a request for something of a repository says that it has gone. Nothing can be
requested by a name without a slash. -/
def LosesOfRepo (server : Server) (fullName : String) (names : List String) (parameters : String) :
    Prop :=
  ∃ owner name, Route.ownerAndName fullName = .ok (owner, name) ∧
    (server ⟨.get, Route.path ("repos" :: owner :: name :: names) ++ parameters, none⟩).SaysGone

theorem isRemoved_eq_false_of_ownerAndName {e : ApiError}
    (h : Route.ownerAndName fullName = .error e) : e.isRemoved = false := by
  unfold Route.ownerAndName at h
  split at h
  · cases h
  · cases h
    rfl

theorem getOfRepo_gone_iff {names : List String} {parameters : String} {read : Json → Option α}
    {answer : Except ApiError α}
    (h : server.result (Rest.getOfRepo fullName names parameters read) = .ok answer) :
    (∃ e, answer = .error e ∧ e.isRemoved = true) ↔
      server.LosesOfRepo fullName names parameters := by
  rw [result_getOfRepo] at h
  unfold LosesOfRepo
  cases hname : Route.ownerAndName fullName with
  | error e =>
    rw [hname] at h
    obtain rfl := Except.ok.inj h
    simp [isRemoved_eq_false_of_ownerAndName hname]
  | ok found =>
    rw [hname] at h
    obtain rfl := Except.ok.inj h
    rw [Reply.read_gone_iff]
    constructor
    · exact fun hgone => ⟨found.1, found.2, rfl, hgone⟩
    · rintro ⟨owner, name, hfound, hgone⟩
      obtain rfl := Except.ok.inj hfound
      exact hgone

end Server
end GitHub
end ReleaseTracker
