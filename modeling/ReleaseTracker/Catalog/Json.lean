import ReleaseTracker.Catalog.Basic
import ReleaseTracker.Json.Record
import ReleaseTracker.Time.Rfc3339

/-! Rows in JSON. A user's token is read but never written. -/

namespace ReleaseTracker
open Json

namespace Json

def time? (v : Json) : Option ZonedTime := v.str?.bind Rfc3339.read

def ofTime (t : ZonedTime) : Json := .str (Rfc3339.write t)

def ofOption {α : Type} (write : α → Json) : Option α → Json
  | none => .null
  | some a => write a

end Json

def User.ofJson? (v : Json) : Option User := do
  let [id, username, name, avatar, token, created, removed] ← v.columns
    [field "id", field "username", field "name", field "avatar_url", field "access_token",
      field "created_at", field "removed_at"] | none
  return {
    id := ← required int64? id
    username := ← required str? username
    name := ← optional str? name
    avatarUrl := ← optional str? avatar
    accessToken := ← required str? token
    createdAt := ← required time? created
    removedAt := ← optional time? removed }

def User.toJson (u : User) : Json :=
  .obj [("id", .int u.id), ("username", .str u.username), ("name", ofOption .str u.name),
    ("avatar_url", ofOption .str u.avatarUrl), ("created_at", ofTime u.createdAt),
    ("removed_at", ofOption ofTime u.removedAt)]

def Repo.ofJson? (v : Json) : Option Repo := do
  let [id, fullName, name, description, homepage, language, avatar, updated, removed] ← v.columns
    [field "id", field "full_name", field "name", field "description", field "homepage",
      field "language", field "owner_avatar_url", field "updated_at", field "removed_at"] | none
  return {
    id := ← required int64? id
    fullName := ← required str? fullName
    name := ← required str? name
    description := ← optional str? description
    homepage := ← optional str? homepage
    language := ← optional str? language
    ownerAvatarUrl := ← optional str? avatar
    updatedAt := ← required time? updated
    removedAt := ← optional time? removed }

def Repo.toJson (r : Repo) : Json :=
  .obj [("id", .int r.id), ("full_name", .str r.fullName), ("name", .str r.name),
    ("description", ofOption .str r.description), ("homepage", ofOption .str r.homepage),
    ("language", ofOption .str r.language), ("owner_avatar_url", ofOption .str r.ownerAvatarUrl),
    ("updated_at", ofTime r.updatedAt), ("removed_at", ofOption ofTime r.removedAt)]

def Star.ofJson? (v : Json) : Option (Numbered Star) := do
  let [id, user, repo, created] ← v.columns
    [field "id", field "user_id", field "repo_id", field "created_at"] | none
  return ⟨← required int64? id,
    ⟨← required int64? user, ← required int64? repo, ← required time? created⟩⟩

def Star.toJson (s : Numbered Star) : Json :=
  .obj [("id", .int s.number), ("user_id", .int s.row.userId), ("repo_id", .int s.row.repoId),
    ("created_at", ofTime s.row.createdAt)]

def Version.ofJson? (v : Json) : Option (Numbered Version) := do
  let [id, repo, tag, name, prerelease, body, created] ← v.columns
    [field "id", field "repo_id", field "tag_name", field "name", field "prerelease", field "body",
      field "created_at"] | none
  return ⟨← required int64? id, {
    repoId := ← required int64? repo
    tagName := ← required str? tag
    name := ← required str? name
    prerelease := ← required bool? prerelease
    body := ← required str? body
    createdAt := ← required time? created }⟩

def Version.toJson (v : Numbered Version) : Json :=
  .obj [("id", .int v.number), ("repo_id", .int v.row.repoId), ("tag_name", .str v.row.tagName),
    ("name", .str v.row.name), ("prerelease", .bool v.row.prerelease), ("body", .str v.row.body),
    ("created_at", ofTime v.row.createdAt)]

end ReleaseTracker
