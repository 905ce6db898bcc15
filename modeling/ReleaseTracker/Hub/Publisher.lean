import ReleaseTracker.Fault
import ReleaseTracker.Http.Message
import ReleaseTracker.Hub.Retry
import ReleaseTracker.Text.Search

/-! Telling a hub that feeds have news. Each user has one feed, and the feeds of all users that
follow a repository are announced in one request. -/

namespace ReleaseTracker.Hub

inductive Query where
  | stargazers (repoIds : List Int)
  | send (request : Http.Request)
  | pause (nanoseconds : Nat)
deriving DecidableEq, Repr

def Answer : Query → Type
  | .stargazers _ => Except StoreError (List String)
  | .send _ => Except Http.Error Http.Response
  | .pause _ => Unit

def Announcing : Interface := ⟨Query, Answer⟩

structure Publisher where
  hubUrl : String
  feedUrlTemplate : String
  retry : RetryPolicy
deriving DecidableEq, Repr

def usernameMark : List Char := "\x7busername\x7d".toList

def feedUrl (template username : String) : String :=
  String.ofList (Text.replaceAll usernameMark username.toList template.toList)

def hasUsernameMark (template : String) : Bool := Text.occursIn usernameMark template.toList

def Publisher.request (publisher : Publisher) (usernames : List String) : Http.Request :=
  Http.Request.form publisher.hubUrl <|
    ("hub.mode", "publish") ::
      usernames.map fun name => ("hub.url", feedUrl publisher.feedUrlTemplate name)

def sending (request : Http.Request) :
    (q : Repetition) →
      Program Announcing Fault ((Repeating Http.Error Http.Response).Answer q)
  | .attempt => .query (I := Announcing) (.send request)
  | .pause delay => .query (I := Announcing) (.pause delay)

def accepted : Except Http.Error Http.Response → Bool
  | .ok response => response.isSuccess
  | .error _ => false

/-- Announce repositories with news. Without a follower nothing is sent. -/
def Publisher.announce (publisher : Publisher) (repoIds : List Int) :
    Program Announcing Fault Bool :=
  .ask (I := Announcing) (.stargazers repoIds) fun (found : Except StoreError (List String)) =>
    match found with
    | .error _ | .ok [] => .done false
    | .ok usernames =>
      ((publisher.retry.repeating Http.Error.isTransport).translate
        (sending (publisher.request usernames))).bind fun result => .done (accepted result)

end ReleaseTracker.Hub
