import ReleaseTracker.Credential.Basic
import ReleaseTracker.GitHub.Exchange

/-! A script for GitHub: the replies to each request, in order. The last reply to a request stays,
so that it answers all further ones. -/

namespace ReleaseTracker.Rehearsal
open GitHub (Request Reply)

abbrev Script := List (String × List Reply)

namespace Script

def next? (key : String) : Script → Option (Reply × Script)
  | [] => none
  | (other, replies) :: rest =>
    if other = key then
      match replies with
      | [] => none
      | [reply] => some (reply, (other, [reply]) :: rest)
      | reply :: more => some (reply, (other, more) :: rest)
    else (next? key rest).map fun (reply, rest) => (reply, (other, replies) :: rest)

def put (key : String) (replies : List Reply) : Script → Script
  | [] => [(key, replies)]
  | (other, old) :: rest =>
    if other = key then (other, replies) :: rest else (other, old) :: put key replies rest

end Script

def quotaReply (remaining : Nat) : Reply :=
  let rate : Json := .obj [("limit", .int 5000), ("used", .int 0), ("remaining", .int remaining),
    ("reset", .int 0)]
  .received 200 (.json (.obj [("resources", .obj [("core", rate), ("search", rate)]),
    ("rate", rate)]))

def unscripted (request : Request) : Reply :=
  if request.line = "POST /markdown" then
    let text := (request.body.bind (·.get? "text")).bind Json.str?
    .received 200 (.text ("<p>" ++ text.getD "" ++ "</p>"))
  else .received 404 (.json (.obj [("message", .str "Not Found")]))

def label : Identity → String
  | .app => "app"
  | .user _ username => username

structure Scripts where
  routes : Script
  quotas : Script

def Scripts.reply (scripts : Scripts) (identity : Identity) (request : Request) :
    Reply × Scripts :=
  if request.line = "GET /rate_limit" then
    match scripts.quotas.next? (label identity) with
    | some (reply, quotas) => (reply, { scripts with quotas })
    | none => (quotaReply 5000, scripts)
  else
    match scripts.routes.next? request.line with
    | some (reply, routes) => (reply, { scripts with routes })
    | none => (unscripted request, scripts)

end ReleaseTracker.Rehearsal
