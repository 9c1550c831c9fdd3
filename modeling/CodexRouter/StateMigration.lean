/-
# The schema of the state database

`StateStore::migrate` runs one batch of statements in a transaction and looks at the
schema version afterwards.  The batch writes the version, so that what is looked at is
never the version that was stored: `refusesNewer_iff` says that a newer database is the
one kind the law fails on.
-/
import CodexRouter.Base.Run
import CodexRouter.Base.Text
import Mathlib.Data.Int.Notation
import Mathlib.Logic.Function.Basic
import Mathlib.Logic.Function.Iterate

namespace CodexRouter

open Text

/-! ## The database -/

/-- `SCHEMA_VERSION`. -/
def schemaVersion : ℤ := 1

/-- The database as `migrate` sees it: the names of the tables and indexes that exist,
and the rows of the table `schema_meta` by their primary key. -/
structure Database where
  objects : List String
  schemaMeta : String → Option String

/-- `CAST(value AS INTEGER)`: the number that the text begins with, or zero. -/
def castInteger (text : String) : ℤ :=
  let cs := text.toList.dropWhile isWhitespace
  let negative := cs.head? = some '-'
  let digits := if negative ∨ cs.head? = some '+' then cs.tail else cs
  let n : ℤ := ((digits.takeWhile isAsciiDigit).foldl (fun n c => 10 * n + (c.toNat - 48)) 0 : ℕ)
  if negative then max (-9223372036854775808) (-n) else min 9223372036854775807 n

/-- The schema version that is stored. -/
def Database.version (db : Database) : Option ℤ := (db.schemaMeta "schema_version").map castInteger

/-! ## The batch -/

/-- The statements of the batch. -/
inductive SqlStatement where
  /-- `CREATE TABLE IF NOT EXISTS`, and the same for an index. -/
  | create (name : String)
  /-- `INSERT INTO schema_meta .. ON CONFLICT(key) DO UPDATE SET value=excluded.value`. -/
  | upsert (key value : String)
  /-- `INSERT OR IGNORE INTO schema_meta`. -/
  | insertOrIgnore (key value : String)
  deriving DecidableEq, Repr

/-- Run a statement. -/
def Database.execute (db : Database) : SqlStatement → Database
  | .create name => if name ∈ db.objects then db else { db with objects := db.objects ++ [name] }
  | .upsert key value => { db with schemaMeta := Function.update db.schemaMeta key (some value) }
  | .insertOrIgnore key value =>
    if (db.schemaMeta key).isSome then db
    else { db with schemaMeta := Function.update db.schemaMeta key (some value) }

/-- The tables and indexes of the batch. -/
def schemaObjects : List String :=
  ["schema_meta", "accounts", "idx_accounts_live_identity", "groups", "account_groups", "proxies",
    "composite_routes", "api_keys", "scheduled_test_plans", "scheduled_test_results", "idx_plan_results_time",
    "continuation_bindings", "request_ledger", "idx_ledger_account_time", "usage_windows", "oauth_sessions",
    "migration_journal", "admin_settings", "admin_tokens", "image_tasks", "image_batches", "image_batch_items"]

/-- The batch of `migrate`. -/
def migrationBatch : List SqlStatement :=
  schemaObjects.map .create
    ++ [.upsert "schema_version" "1", .insertOrIgnore "baseline" "1.7.10/8afc259"]

/-- `StateStore::migrate`: the answer, and the database afterwards. -/
def migrate (db : Database) : Except String Unit × Database :=
  let db := migrationBatch.foldl Database.execute db
  -- the version that is read is the one the batch has just written
  match db.version with
  | none => (.error "Query returned no rows", db)
  | some version =>
    if version > schemaVersion then
      (.error ("SQLite schema " ++ toString version ++ " is newer than supported " ++ toString schemaVersion), db)
    else (.ok (), db)

/-- `StateStore`, by its path. -/
structure StateStore where
  path : String
  deriving DecidableEq, Repr

/-- `StateStore::open`. -/
def openStore (path : String) (db : Database) : Except String StateStore × Database :=
  ((migrate db).1.map fun _ => ⟨path⟩, (migrate db).2)

/-- The database after `migrate` was run some times. -/
def migrated (n : ℕ) (db : Database) : Database := (fun db => (migrate db).2)^[n] db

/-- A newer database is refused as it is; any other one is migrated, and once is enough. -/
structure RefusesNewer (db : Database) : Prop where
  refused : ∀ version, db.version = some version → schemaVersion < version →
    (migrate db).1.isOk = false ∧ (∀ path, (openStore path db).1.isOk = false)
      ∧ (migrate db).2.schemaMeta = db.schemaMeta
  accepted : (∀ version, db.version = some version → version ≤ schemaVersion) →
    ∀ n, (migrate (migrated n db)).1 = .ok () ∧ migrated (n + 1) db = (migrate db).2

/-! ## What the batch leaves -/

/-- What a statement leaves: running it again changes nothing. -/
def InEffect (s : SqlStatement) (db : Database) : Prop :=
  match s with
  | .create name => name ∈ db.objects
  | .upsert key value => db.schemaMeta key = some value
  | .insertOrIgnore key _ => (db.schemaMeta key).isSome = true

section

variable {db : Database} {s t : SqlStatement}

theorem execute_of_inEffect (h : InEffect s db) : db.execute s = db := by
  cases s with
  | create name => exact if_pos h
  | upsert key value =>
    show { db with schemaMeta := _ } = db
    congr
    funext k
    by_cases hk : k = key
    · subst hk
      rw [Function.update_self]
      exact h.symm
    · rw [Function.update_of_ne hk]
  | insertOrIgnore key value => exact if_pos h

theorem inEffect_execute (s : SqlStatement) (db : Database) : InEffect s (db.execute s) := by
  cases s with
  | create name =>
    unfold Database.execute
    dsimp only
    split
    · assumption
    · exact List.mem_append_right _ (List.mem_singleton_self name)
  | upsert key value => exact Function.update_self key _ _
  | insertOrIgnore key value =>
    unfold Database.execute
    dsimp only
    split
    · assumption
    · show (Function.update db.schemaMeta key (some value) key).isSome = true
      rw [Function.update_self]
      rfl

/-- A row that is there stays, with its value if nothing else is written under its key. -/
theorem schemaMeta_execute (t : SqlStatement) {key value : String} (h : db.schemaMeta key = some value) :
    ∃ value', (db.execute t).schemaMeta key = some value'
      ∧ ((∀ other, t ≠ .upsert key other) → value' = value) := by
  cases t with
  | create name =>
    unfold Database.execute
    dsimp only
    split
    · exact ⟨value, h, fun _ => rfl⟩
    · exact ⟨value, h, fun _ => rfl⟩
  | upsert key' other =>
    unfold Database.execute
    by_cases hk : key = key'
    · subst hk
      exact ⟨other, Function.update_self _ _ _, fun hne => absurd rfl (hne other)⟩
    · exact ⟨value, (Function.update_of_ne hk _ _).trans h, fun _ => rfl⟩
  | insertOrIgnore key' other =>
    unfold Database.execute
    dsimp only
    split
    · exact ⟨value, h, fun _ => rfl⟩
    · rename_i hnone
      have hk : key ≠ key' := by
        rintro rfl
        exact hnone (Option.isSome_iff_exists.mpr ⟨value, h⟩)
      exact ⟨value, (Function.update_of_ne hk _ _).trans h, fun _ => rfl⟩

/-- A statement of the batch does not undo another one. -/
theorem inEffect_keeps (hs : s ∈ migrationBatch) (ht : t ∈ migrationBatch) (h : InEffect s db) :
    InEffect s (db.execute t) := by
  cases s with
  | create name =>
    show name ∈ (db.execute t).objects
    unfold Database.execute
    split
    · split
      · exact h
      · exact List.mem_append_left _ h
    · exact h
    · split
      · exact h
      · exact h
  | upsert key value =>
    obtain ⟨value', hvalue', hkept⟩ := schemaMeta_execute t h
    by_cases hwrites : ∃ other, t = .upsert key other
    · obtain ⟨other, rfl⟩ := hwrites
      -- the batch has a single upsert
      have hsame : other = value := by
        have hs : SqlStatement.upsert key value = .upsert "schema_version" "1" := by
          simpa [migrationBatch] using hs
        have ht : SqlStatement.upsert key other = .upsert "schema_version" "1" := by
          simpa [migrationBatch] using ht
        rw [SqlStatement.upsert.injEq] at hs ht
        exact ht.2.trans hs.2.symm
      subst hsame
      exact Function.update_self _ _ _
    · have hvalue : value' = value := hkept fun other heq => hwrites ⟨other, heq⟩
      exact hvalue ▸ hvalue'
  | insertOrIgnore key value =>
    obtain ⟨value₀, hvalue₀⟩ := Option.isSome_iff_exists.mp h
    obtain ⟨value', hvalue', -⟩ := schemaMeta_execute t hvalue₀
    exact Option.isSome_iff_exists.mpr ⟨value', hvalue'⟩

/-- The batch leaves the version of this build, whatever was stored. -/
theorem version_batch (db : Database) : (migrationBatch.foldl Database.execute db).version = some schemaVersion := by
  have hmem : SqlStatement.upsert "schema_version" "1" ∈ migrationBatch :=
    List.mem_append_right _ List.mem_cons_self
  have hset : InEffect (.upsert "schema_version" "1") (migrationBatch.foldl Database.execute db) :=
    foldl_settles (fun s _ db => inEffect_execute s db) inEffect_keeps hmem db
  have hrow : (migrationBatch.foldl Database.execute db).schemaMeta "schema_version" = some "1" := hset
  have hone : castInteger "1" = schemaVersion := by decide
  rw [Database.version, hrow, Option.map_some, hone]

/-- The version check never fails. -/
theorem migrate_eq (db : Database) : migrate db = (.ok (), migrationBatch.foldl Database.execute db) := by
  unfold migrate
  dsimp only
  rw [version_batch]
  rfl

/-- Once is enough. -/
theorem migrate_migrate (db : Database) : (migrate (migrate db).2).2 = (migrate db).2 := by
  have htwice := foldl_foldl_of_settled (l := migrationBatch) execute_of_inEffect
    (fun s _ db => inEffect_execute s db) inEffect_keeps db
  simp only [migrate_eq]
  exact htwice

theorem migrated_succ (n : ℕ) (db : Database) : migrated (n + 1) db = (migrate db).2 := by
  induction n with
  | zero => rfl
  | succ n ih =>
    have hstep : migrated (n + 1 + 1) db = (migrate (migrated (n + 1) db)).2 :=
      Function.iterate_succ_apply' _ _ _
    rw [hstep, ih, migrate_migrate]

/-- The law holds of a database, if and only if its version is not a newer one. -/
theorem refusesNewer_iff :
    RefusesNewer db ↔ ∀ version, db.version = some version → version ≤ schemaVersion := by
  constructor
  · intro h version hversion
    by_contra hnewer
    have hrefused := (h.refused version hversion (not_le.mp hnewer)).1
    rw [migrate_eq] at hrefused
    cases hrefused
  · intro hold
    refine ⟨fun version hversion hnewer => ?_, fun _ n => ⟨?_, migrated_succ n db⟩⟩
    · exact absurd hnewer (not_lt.mpr (hold version hversion))
    · rw [migrate_eq]

/-- A database of the next version. -/
def nextDatabase : Database where
  objects := schemaObjects
  schemaMeta key := if key = "schema_version" then some "2" else none

/-- It is accepted, and its version is overwritten. -/
theorem not_refusesNewer_next :
    nextDatabase.version = some 2 ∧ (migrate nextDatabase).1 = .ok ()
      ∧ (migrate nextDatabase).2.version = some 1 ∧ ¬ RefusesNewer nextDatabase := by
  have hversion : nextDatabase.version = some 2 := by decide
  refine ⟨hversion, by rw [migrate_eq], ?_, fun h => ?_⟩
  · rw [migrate_eq]
    exact version_batch nextDatabase
  · have hrefused := (h.refused 2 hversion (by decide)).1
    rw [migrate_eq] at hrefused
    cases hrefused

end

end CodexRouter
