import ReleaseTracker.Store.Call

/-! A database with or without its tables: applying the one migration creates them, and rolling it
back drops them with all rows. -/

namespace ReleaseTracker

structure Database where
  tables : Option Tables
deriving DecidableEq, Repr

namespace Database

def migrationName : String := "m20260301_000001_create_schema"

def bare : Database := ⟨none⟩

def migrated : Database := ⟨some .empty⟩

def migrateUp (db : Database) : Database := ⟨some (db.tables.getD .empty)⟩

def migrateDown (_ : Database) : Database := bare

def appliedMigrations (db : Database) : List String :=
  if db.tables.isSome then [migrationName] else []

def pendingMigrations (db : Database) : List String :=
  if db.tables.isSome then [] else [migrationName]

/-- The names in the schema, each behind its kind, in ascending order. The table of applied
migrations outlives the others. -/
def objects (db : Database) : List String :=
  if db.tables.isSome then
    ["index idx_repos_full_name", "index idx_stars_repo", "index idx_stars_user_repo",
      "index idx_users_username", "index idx_versions_created_at", "index idx_versions_repo_tag",
      "table repos", "table starfeed_migrations", "table stars", "table users", "table versions"]
  else ["table starfeed_migrations"]

/-- Answer a call. Without tables, a call that needs them fails. -/
def perform (now : Instant) (db : Database) (call : StoreCall) :
    Except StoreError call.Result × Database :=
  match db.tables with
  | some t =>
    let (answer, t') := t.perform now call
    (answer, ⟨some t'⟩)
  | none =>
    if call.needsTables then (.error .missingTable, db) else ((Tables.empty.perform now call).1, db)

def change (db : Database) (statement : Tables → Option Tables) : Except StoreError Database :=
  match db.tables with
  | none => .error .missingTable
  | some t =>
    match statement t with
    | none => .error .brokenKey
    | some t' => .ok ⟨some t'⟩

end Database
end ReleaseTracker
