/-
# Archives that Codex left open

`reconcile_codex_archives_at` moves the rollout files of threads whose archiving was asked for, and updates
their rows in a transaction.  A failure moves the files back; the last step is the commit, after which nothing is
moved back, and two files with one name are moved to one place.

`keepsInStep_iff` says when neither shows.
-/
import CodexRouter.Base.Moves
import CodexRouter.Base.Text

namespace CodexRouter

open Text Places

/-! ## The thread store -/

/-- A row of `threads`. -/
structure ThreadRow where
  id : String
  rolloutPath : String
  createdAt : ℤ
  archived : ℤ
  archivedAt : Option ℤ
  deriving DecidableEq, Repr

namespace ThreadRow

/-- `SET rollout_path=…`, and with a time `archived=1,archived_at=…`. -/
def set (row : ThreadRow) (path : String) : Option ℤ → ThreadRow
  | none => { row with rolloutPath := path }
  | some time => { row with rolloutPath := path, archived := 1, archivedAt := some time }

@[simp] theorem id_set (row : ThreadRow) (path : String) (time : Option ℤ) : (row.set path time).id = row.id := by
  cases time <;> rfl

@[simp] theorem rolloutPath_set (row : ThreadRow) (path : String) (time : Option ℤ) :
    (row.set path time).rolloutPath = path := by
  cases time <;> rfl

/-- `ORDER BY created_at,id`. -/
def before (row row' : ThreadRow) : Bool :=
  row.createdAt < row'.createdAt || (row.createdAt = row'.createdAt && row.id ≤ row'.id)

end ThreadRow

/-- The table `threads`, by its primary key. -/
structure ThreadTable where
  rows : List ThreadRow
  nodup : (rows.map ThreadRow.id).Nodup

namespace ThreadTable

/-- `UPDATE threads SET … WHERE id=… AND archived=0 AND rollout_path IN …`, with the number of rows. -/
def update (table : ThreadTable) (id : String) (paths : List String) (path : String) (time : Option ℤ) :
    ThreadTable × ℕ :=
  let chosen := fun row : ThreadRow => row.id = id && row.archived = 0 && row.rolloutPath ∈ paths
  (⟨table.rows.map fun row => if chosen row then row.set path time else row, by
    have hids : (table.rows.map fun row => if chosen row then row.set path time else row).map ThreadRow.id
        = table.rows.map ThreadRow.id := by
      rw [List.map_map]
      refine List.map_congr_left fun row _ => ?_
      dsimp only [Function.comp_apply]
      split
      · exact ThreadRow.id_set row path time
      · rfl
    rw [hids]
    exact table.nodup⟩, table.rows.countP chosen)

end ThreadTable

/-! ## Paths -/

/-- The paths in the table, as the file system and `std::path` have them. -/
structure ArchivePaths (P : Type) where
  /-- The place that a path leads to. -/
  place : String → P
  /-- `Path::file_name`. -/
  fileName : String → Option String
  /-- `archive_root.join(file_name)`. -/
  archived : String → String
  /-- The archive folder and the folders above it. -/
  roots : List P
  /-- The archive folder is not inside itself. -/
  inside : ∀ path name, fileName path = some name → place (archived name) ∉ roots
  /-- A path into the archive folder has the name that its place has there. -/
  own : ∀ path path' name name', fileName path = some name → fileName path' = some name' →
    place path' = place (archived name) → place (archived name') = place path'

/-- A step that can fail, at a row. -/
inductive ArchiveStep where
  | openStore
  | quickCheck
  | readLogs
  | readRows
  | backup
  | createRoot
  | begin
  | normalize (id : String)
  | rename (id : String)
  | archive (id : String)
  | commit
  deriving DecidableEq, Repr

/-- Why a repair fails. -/
inductive ArchiveError where
  | failed (step : ArchiveStep)
  /-- "Codex thread state changed during offline archive repair". -/
  | changed
  deriving DecidableEq, Repr

/-- `CodexArchiveRepairSummary`. -/
structure CodexArchiveRepairSummary where
  normalizedPaths : ℕ := 0
  archivedThreads : ℕ := 0
  deriving DecidableEq, Repr

/-- A row that something is to be done about. -/
structure ArchiveEntry where
  id : String
  current : String
  normalized : String
  destination : String
  deriving DecidableEq, Repr

/-- `current.strip_prefix(r"\\?\").unwrap_or(current)`. -/
def normalizedPath (current : String) : String := (stripPrefix current "\\\\?\\").getD current

/-! ## The plan -/

section

variable {P C : Type} [DecidableEq P] (paths : ArchivePaths P) (attempted : List String) (nodes : Places P C)

/-- `is_file`. -/
def isFile (path : String) : Bool := (nodes.fileAt (paths.place path)).isSome

/-- `exists`. -/
def pathExists (path : String) : Bool := (nodes (paths.place path)).isSome

/-- The rows that are not archived, in their order. -/
def openRows (table : ThreadTable) : List ThreadRow := (table.rows.filter (·.archived = 0)).mergeSort ThreadRow.before

/-- Whether the path of a row is to lose its prefix. -/
def normalizes (row : ThreadRow) : Bool :=
  normalizedPath row.rolloutPath ≠ row.rolloutPath && isFile paths nodes (normalizedPath row.rolloutPath)

/-- Where a row is to be archived. -/
def archiveEntry (row : ThreadRow) : Option ArchiveEntry :=
  if row.id ∈ attempted then
    (paths.fileName (normalizedPath row.rolloutPath)).map fun name =>
      ⟨row.id, row.rolloutPath, normalizedPath row.rolloutPath, paths.archived name⟩
  else none

/-- `normalizations`. -/
def plannedNormalizations (table : ThreadTable) : List ThreadRow := (openRows table).filter (normalizes paths nodes)

/-- `archives`. -/
def plannedArchives (table : ThreadTable) : List ArchiveEntry :=
  ((openRows table).filterMap (archiveEntry paths attempted)).filter fun entry =>
    isFile paths nodes entry.normalized && !pathExists paths nodes entry.destination

/-- `moved_only`. -/
def plannedMovedOnly (table : ThreadTable) : List ArchiveEntry :=
  ((openRows table).filterMap (archiveEntry paths attempted)).filter fun entry =>
    !pathExists paths nodes entry.normalized && isFile paths nodes entry.destination

/-- `create_dir_all(archive_root)`. -/
def createRoot : Option (Places P C) :=
  if paths.roots.any fun root => (nodes.fileAt root).isSome then none
  else some fun place => if place ∈ paths.roots then some .folder else nodes place

end

/-! ## The repair -/

/-- The table in the transaction, the nodes, the moves made and the summary. -/
structure ArchiveRun (P C : Type) where
  table : ThreadTable
  nodes : Places P C
  moved : List (P × P) := []
  summary : CodexArchiveRepairSummary := {}

section

variable {P C : Type} [DecidableEq P] (paths : ArchivePaths P) (attempted : List String)
  (faults : ArchiveStep → Bool) (now : ℤ)

/-- A loop that ends at the first error. -/
def runEach {E : Type} (step : E → ArchiveRun P C → Option ArchiveError × ArchiveRun P C) :
    List E → ArchiveRun P C → Option ArchiveError × ArchiveRun P C
  | [], run => (none, run)
  | entry :: rest, run =>
    match step entry run with
    | (some e, run) => (some e, run)
    | (none, run) => runEach step rest run

/-- The body of the loop over `normalizations`. -/
def normalizeRow (row : ThreadRow) (run : ArchiveRun P C) : Option ArchiveError × ArchiveRun P C :=
  if faults (.normalize row.id) then (some (.failed (.normalize row.id)), run)
  else
    let (table, changed) := run.table.update row.id [row.rolloutPath] (normalizedPath row.rolloutPath) none
    (none, { run with
      table, summary := { run.summary with normalizedPaths := run.summary.normalizedPaths + changed } })

/-- The body of the loop over `archives`. -/
def archiveFile (entry : ArchiveEntry) (run : ArchiveRun P C) : Option ArchiveError × ArchiveRun P C :=
  let source := paths.place entry.normalized
  let destination := paths.place entry.destination
  if faults (.rename entry.id) || (run.nodes.fileAt source).isNone || (run.nodes destination).any PlaceNode.isFolder then
    (some (.failed (.rename entry.id)), run)
  else
    let run := { run with nodes := run.nodes.move source destination, moved := run.moved ++ [(source, destination)] }
    if faults (.archive entry.id) then (some (.failed (.archive entry.id)), run)
    else
      let (table, changed) :=
        run.table.update entry.id [entry.current, normalizedPath entry.current] entry.destination (some now)
      let run := { run with table }
      if changed ≠ 1 then (some .changed, run)
      else (none, { run with
        summary := { run.summary with archivedThreads := run.summary.archivedThreads + 1 } })

/-- The body of the loop over `moved_only`. -/
def archiveMoved (entry : ArchiveEntry) (run : ArchiveRun P C) : Option ArchiveError × ArchiveRun P C :=
  if faults (.archive entry.id) then (some (.failed (.archive entry.id)), run)
  else
    let (table, changed) := run.table.update entry.id [entry.current, entry.normalized] entry.destination (some now)
    let run := { run with table }
    (none, if changed = 1 then
      { run with summary := { run.summary with archivedThreads := run.summary.archivedThreads + 1 } } else run)

/-- What is done inside the transaction. -/
def repairThreads (normalizations : List ThreadRow) (archives movedOnly : List ArchiveEntry) (run : ArchiveRun P C) :
    Option ArchiveError × ArchiveRun P C :=
  match runEach (normalizeRow faults) normalizations run with
  | (some e, run) => (some e, run)
  | (none, run) =>
    match runEach (archiveFile paths faults now) archives run with
    | (some e, run) => (some e, run)
    | (none, run) => runEach (archiveMoved faults now) movedOnly run

/-- The first of the given steps that fails. -/
def firstFault (steps : List ArchiveStep) : Option ArchiveError := (steps.find? faults).map .failed

/-- `reconcile_codex_archives_at`, where the store is there or not. -/
def reconcileCodexArchivesAt (isThere : Bool) (table : ThreadTable) (nodes : Places P C) :
    Except ArchiveError CodexArchiveRepairSummary × ThreadTable × Places P C :=
  if !isThere then (.ok {}, table, nodes)
  else
    match firstFault faults [.readLogs, .openStore, .quickCheck, .readRows] with
    | some e => (.error e, table, nodes)
    | none =>
      let normalizations := plannedNormalizations paths nodes table
      let archives := plannedArchives paths attempted nodes table
      let movedOnly := plannedMovedOnly paths attempted nodes table
      if normalizations.isEmpty && archives.isEmpty && movedOnly.isEmpty then (.ok {}, table, nodes)
      else
        match firstFault faults [.backup, .createRoot] with
        | some e => (.error e, table, nodes)
        | none =>
          match createRoot paths nodes with
          | none => (.error (.failed .createRoot), table, nodes)
          | some created =>
            if faults .begin then (.error (.failed .begin), table, created)
            else
              match repairThreads paths faults now normalizations archives movedOnly ⟨table, created, [], {}⟩ with
              | (some e, run) => (.error e, table, undoAll run.moved run.nodes)
              | (none, run) =>
                if faults .commit then (.error (.failed .commit), table, run.nodes)
                else (.ok run.summary, run.table, run.nodes)

end

/-! ## What it is to do -/

section

variable {P C : Type} [DecidableEq P] (paths : ArchivePaths P) (attempted : List String)
  (faults : ArchiveStep → Bool) (now : ℤ) (isThere : Bool) (table : ThreadTable) (nodes : Places P C)

/-- A row that a call archived, before and after it. -/
def ArchivedRow (after : ThreadTable) (row row' : ThreadRow) : Prop :=
  (row, row') ∈ table.rows.zip after.rows ∧ row.archived = 0 ∧ row'.archived ≠ 0

/-- Of a row that is not archived, only a prefix of its path can go. -/
def RowKept (row row' : ThreadRow) : Prop :=
  row' = row ∨ (normalizes paths nodes row = true ∧ row' = row.set (normalizedPath row.rolloutPath) none)

/-- A call that fails changes nothing; one that ends well keeps every file, and archives rows with files. -/
structure KeepsInStep : Prop where
  failed : ∀ e, (reconcileCodexArchivesAt paths attempted faults now isThere table nodes).1 = .error e →
    (reconcileCodexArchivesAt paths attempted faults now isThere table nodes).2.1.rows = table.rows
      ∧ ∀ place, (reconcileCodexArchivesAt paths attempted faults now isThere table nodes).2.2.fileAt place
        = nodes.fileAt place
  rows : ∀ summary, (reconcileCodexArchivesAt paths attempted faults now isThere table nodes).1 = .ok summary →
    List.Forall₂ (fun row row' => (row.archived = 0 ∧ ∃ path, row' = row.set path (some now))
        ∨ RowKept paths nodes row row') table.rows
      (reconcileCodexArchivesAt paths attempted faults now isThere table nodes).2.1.rows
  archived : ∀ summary, (reconcileCodexArchivesAt paths attempted faults now isThere table nodes).1 = .ok summary →
    ∀ row row', ArchivedRow table (reconcileCodexArchivesAt paths attempted faults now isThere table nodes).2.1 row row' →
      (∃ name, row'.rolloutPath = paths.archived name) ∧ isFile paths
        (reconcileCodexArchivesAt paths attempted faults now isThere table nodes).2.2 row'.rolloutPath = true
  files : ∀ summary, (reconcileCodexArchivesAt paths attempted faults now isThere table nodes).1 = .ok summary →
    ∀ place content, nodes.fileAt place = some content →
      (reconcileCodexArchivesAt paths attempted faults now isThere table nodes).2.2.fileAt place = some content
      ∨ ∃ row row', ArchivedRow table
          (reconcileCodexArchivesAt paths attempted faults now isThere table nodes).2.1 row row'
        ∧ paths.place (normalizedPath row.rolloutPath) = place
        ∧ (reconcileCodexArchivesAt paths attempted faults now isThere table nodes).2.2.fileAt
          (paths.place row'.rolloutPath) = some content
  apart : ∀ summary, (reconcileCodexArchivesAt paths attempted faults now isThere table nodes).1 = .ok summary →
    ∀ row row' other other',
      ArchivedRow table (reconcileCodexArchivesAt paths attempted faults now isThere table nodes).2.1 row row' →
      ArchivedRow table (reconcileCodexArchivesAt paths attempted faults now isThere table nodes).2.1 other other' →
      isFile paths nodes (normalizedPath row.rolloutPath) = true →
      isFile paths nodes (normalizedPath other.rolloutPath) = true →
      paths.place row'.rolloutPath = paths.place other'.rolloutPath →
      paths.place (normalizedPath row.rolloutPath) = paths.place (normalizedPath other.rolloutPath)

/-- Nothing fails before the first file is moved. -/
def reachesMoves : Bool :=
  isThere && [.readLogs, .openStore, .quickCheck, .readRows, .backup, .createRoot, .begin].all (!faults ·)
    && paths.roots.all (fun root => (nodes.fileAt root).isNone)
    && (plannedNormalizations paths nodes table).all fun row => !faults (.normalize row.id)

/-- The renames up to the first failure, where some files were moved already: one of them cannot be moved again. -/
def movesMade : List P → List ArchiveEntry → List ArchiveEntry
  | _, [] => []
  | starts, entry :: rest =>
    if faults (.rename entry.id) || paths.place entry.normalized ∈ starts then []
    else if faults (.archive entry.id) then [entry]
    else entry :: movesMade (paths.place entry.normalized :: starts) rest

/-- The renames that a call makes. -/
def renamesMade : List ArchiveEntry :=
  if reachesMoves paths faults isThere table nodes then movesMade paths faults [] (plannedArchives paths attempted nodes table)
  else []

/-- Some file is moved, and nothing but the commit fails. -/
structure CommitLost : Prop where
  reaches : reachesMoves paths faults isThere table nodes = true
  moves : plannedArchives paths attempted nodes table ≠ []
  apart : ((plannedArchives paths attempted nodes table).map fun entry => paths.place entry.normalized).Nodup
  renames : ∀ entry ∈ plannedArchives paths attempted nodes table,
    faults (.rename entry.id) = false ∧ faults (.archive entry.id) = false
  movedOnly : ∀ entry ∈ plannedMovedOnly paths attempted nodes table, faults (.archive entry.id) = false
  commit : faults .commit = true

end

/-! ## The plan -/

section

variable {P C : Type} [DecidableEq P] {paths : ArchivePaths P} {attempted : List String}
  {faults : ArchiveStep → Bool} {now : ℤ} {table : ThreadTable} {nodes : Places P C} {entry : ArchiveEntry}
  {row : ThreadRow}

theorem mem_openRows : row ∈ openRows table ↔ row ∈ table.rows ∧ row.archived = 0 := by
  rw [openRows, (List.mergeSort_perm _ _).mem_iff, List.mem_filter, decide_eq_true_eq]

theorem nodup_openRows (table : ThreadTable) : (openRows table).Pairwise fun row row' => row.id ≠ row'.id := by
  have hrows : table.rows.Pairwise fun row row' => row.id ≠ row'.id := List.pairwise_map.mp table.nodup
  exact ((List.mergeSort_perm _ _).pairwise_iff fun h => Ne.symm h).mpr (hrows.filter _)

/-- An entry is made from an open row. -/
structure EntryOf (paths : ArchivePaths P) (table : ThreadTable) (entry : ArchiveEntry) (row : ThreadRow) : Prop where
  mem : row ∈ table.rows
  isOpen : row.archived = 0
  id : entry.id = row.id
  current : entry.current = row.rolloutPath
  normalized : entry.normalized = normalizedPath row.rolloutPath
  named : ∃ name, paths.fileName entry.normalized = some name ∧ entry.destination = paths.archived name

omit [DecidableEq P] in
theorem entryOf_archiveEntry (hrow : row ∈ openRows table) (h : archiveEntry paths attempted row = some entry) :
    EntryOf paths table entry row := by
  unfold archiveEntry at h
  split at h
  · obtain ⟨name, hname, rfl⟩ := Option.map_eq_some_iff.mp h
    exact ⟨(mem_openRows.mp hrow).1, (mem_openRows.mp hrow).2, rfl, rfl, rfl, name, hname, rfl⟩
  · cases h

omit [DecidableEq P] in
theorem nodup_entries (paths : ArchivePaths P) (attempted : List String) (table : ThreadTable) :
    ((openRows table).filterMap (archiveEntry paths attempted)).Pairwise fun entry entry' => entry.id ≠ entry'.id := by
  have hids : ∀ {row : ThreadRow} {entry : ArchiveEntry}, archiveEntry paths attempted row = some entry →
      entry.id = row.id := by
    intro row entry h
    unfold archiveEntry at h
    split at h
    · obtain ⟨name, -, rfl⟩ := Option.map_eq_some_iff.mp h
      rfl
    · cases h
  rw [List.pairwise_filterMap]
  refine (nodup_openRows table).imp fun hne entry hentry entry' hentry' => ?_
  rw [hids hentry, hids hentry']
  exact hne

omit [DecidableEq P] in
theorem mem_plannedArchives (h : entry ∈ plannedArchives paths attempted nodes table) :
    (∃ row, EntryOf paths table entry row) ∧ isFile paths nodes entry.normalized = true
      ∧ nodes (paths.place entry.destination) = none := by
  obtain ⟨hmem, hchosen⟩ := List.mem_filter.mp h
  obtain ⟨row, hrow, hentry⟩ := List.mem_filterMap.mp hmem
  rw [Bool.and_eq_true, Bool.not_eq_true', pathExists, Option.isSome_eq_false_iff, Option.isNone_iff_eq_none] at hchosen
  exact ⟨⟨row, entryOf_archiveEntry hrow hentry⟩, hchosen⟩

omit [DecidableEq P] in
theorem mem_plannedMovedOnly (h : entry ∈ plannedMovedOnly paths attempted nodes table) :
    (∃ row, EntryOf paths table entry row) ∧ nodes (paths.place entry.normalized) = none
      ∧ isFile paths nodes entry.destination = true := by
  obtain ⟨hmem, hchosen⟩ := List.mem_filter.mp h
  obtain ⟨row, hrow, hentry⟩ := List.mem_filterMap.mp hmem
  rw [Bool.and_eq_true, Bool.not_eq_true', pathExists, Option.isSome_eq_false_iff, Option.isNone_iff_eq_none] at hchosen
  exact ⟨⟨row, entryOf_archiveEntry hrow hentry⟩, hchosen⟩

/-! ## The table -/

/-- A row after some normalizations and archivings. -/
def settled (now : ℤ) (normalized : List ThreadRow) (done : List ArchiveEntry) (row : ThreadRow) : ThreadRow :=
  match done.find? (·.id = row.id) with
  | some entry => row.set entry.destination (some now)
  | none => if row.id ∈ normalized.map ThreadRow.id then row.set (normalizedPath row.rolloutPath) none else row

theorem id_settled (normalized : List ThreadRow) (done : List ArchiveEntry) (row : ThreadRow) :
    (settled now normalized done row).id = row.id := by
  unfold settled
  split
  · exact ThreadRow.id_set _ _ _
  · split
    · exact ThreadRow.id_set _ _ _
    · rfl

/-- A row that is not archived yet has its path, or the path without the prefix. -/
theorem settled_of_open (now : ℤ) (normalized : List ThreadRow) {done : List ArchiveEntry}
    (h : ∀ entry ∈ done, entry.id ≠ row.id) :
    (settled now normalized done row).archived = row.archived
      ∧ (settled now normalized done row).rolloutPath ∈ [row.rolloutPath, normalizedPath row.rolloutPath]
      ∧ ∀ path time, (settled now normalized done row).set path (some time) = row.set path (some time) := by
  have hnone : done.find? (·.id = row.id) = none := by
    rw [List.find?_eq_none]
    intro entry hentry
    rw [decide_eq_true_eq]
    exact h entry hentry
  unfold settled
  rw [hnone]
  dsimp only
  split
  · exact ⟨rfl, List.mem_cons_of_mem _ List.mem_cons_self, fun path time => rfl⟩
  · exact ⟨rfl, List.mem_cons_self, fun path time => rfl⟩

/-- An update of an open row by its key and path is one of this row. -/
theorem update_of_mem {id : String} {texts : List String} (hmem : row ∈ table.rows) (hid : row.id = id)
    (hopen : row.archived = 0) (hpath : row.rolloutPath ∈ texts) (path : String) (time : Option ℤ) :
    (table.update id texts path time).1.rows = table.rows.map (fun row => if row.id = id then row.set path time else row)
      ∧ (table.update id texts path time).2 = 1 := by
  have hsame : ∀ other ∈ table.rows, other.id = id → other = row := by
    intro other hother hkey
    exact List.inj_on_of_nodup_map table.nodup hother hmem (hkey.trans hid.symm)
  have hchosen : ∀ other ∈ table.rows,
      (other.id = id && other.archived = 0 && other.rolloutPath ∈ texts : Bool) = decide (other.id = id) := by
    intro other hother
    by_cases hkey : other.id = id
    · rw [hsame other hother hkey, hid, hopen]
      simp [hpath]
    · simp [hkey]
  unfold ThreadTable.update
  dsimp only
  constructor
  · refine List.map_congr_left fun other hother => ?_
    simp only [hchosen other hother, decide_eq_true_eq]
  · rw [List.countP_congr (q := fun other => decide (other.id = id)) fun other hother => by rw [hchosen other hother]]
    have hcount : (table.rows.map ThreadRow.id).count id = 1 :=
      List.count_eq_one_of_mem table.nodup (hid ▸ List.mem_map_of_mem hmem)
    rw [← hcount, List.count, List.countP_map]
    exact List.countP_congr fun other _ => by simp

/-- The loop over the normalizations. -/
theorem normalizeRow_of_settled {table' : ThreadTable} {normalized : List ThreadRow} (hrow : row ∈ openRows table)
    (hnew : row.id ∉ normalized.map ThreadRow.id) (htable : table'.rows = table.rows.map (settled now normalized [])) :
    (table'.update row.id [row.rolloutPath] (normalizedPath row.rolloutPath) none).1.rows
      = table.rows.map (settled now (normalized ++ [row]) []) := by
  obtain ⟨hmem, hopen⟩ := mem_openRows.mp hrow
  have hsettled : settled now normalized [] row = row := by
    unfold settled
    exact if_neg hnew
  have hmem' : row ∈ table'.rows := by
    rw [htable, ← hsettled]
    exact List.mem_map_of_mem hmem
  rw [(update_of_mem hmem' rfl hopen List.mem_cons_self _ none).1, htable, List.map_map]
  refine List.map_congr_left fun other hother => ?_
  rw [Function.comp_apply, id_settled]
  by_cases hkey : other.id = row.id
  · have hsame : other = row := List.inj_on_of_nodup_map table.nodup hother hmem hkey
    rw [if_pos hkey, hsame, hsettled]
    unfold settled
    simp
  · rw [if_neg hkey]
    unfold settled
    simp [hkey]

omit [DecidableEq P] in
/-- The update of an entry. -/
theorem archive_of_settled {table' : ThreadTable} {normalized : List ThreadRow} {done : List ArchiveEntry}
    (hentry : EntryOf paths table entry row) (hnew : ∀ other ∈ done, other.id ≠ entry.id)
    (htable : table'.rows = table.rows.map (settled now normalized done)) :
    (table'.update entry.id [entry.current, normalizedPath entry.current] entry.destination (some now)).1.rows
        = table.rows.map (settled now normalized (done ++ [entry]))
      ∧ (table'.update entry.id [entry.current, normalizedPath entry.current] entry.destination (some now)).2 = 1 := by
  have hnew' : ∀ other ∈ done, other.id ≠ row.id := fun other hother => hentry.id ▸ hnew other hother
  obtain ⟨harchived, hpath, hset⟩ := settled_of_open now normalized hnew'
  have hmem' : settled now normalized done row ∈ table'.rows := by
    rw [htable]
    exact List.mem_map_of_mem hentry.mem
  rw [hentry.current]
  obtain ⟨hrows, hcount⟩ := update_of_mem hmem' ((id_settled normalized done row).trans hentry.id.symm)
    (harchived.trans hentry.isOpen) hpath entry.destination (some now)
  refine ⟨?_, hcount⟩
  rw [hrows, htable, List.map_map]
  refine List.map_congr_left fun other hother => ?_
  rw [Function.comp_apply, id_settled]
  by_cases hkey : other.id = entry.id
  · have hsame : other = row := List.inj_on_of_nodup_map table.nodup hother hentry.mem (hkey.trans hentry.id)
    have hnone : done.find? (·.id = row.id) = none := by
      rw [List.find?_eq_none]
      intro entry' hentry'
      rw [decide_eq_true_eq]
      exact hnew' entry' hentry'
    rw [if_pos hkey, hsame, hset]
    unfold settled
    simp [hnone, hentry.id]
  · have hkey' : ¬ entry.id = other.id := fun h => hkey h.symm
    rw [if_neg hkey]
    unfold settled
    simp [hkey']

/-! ## The loops -/

omit [DecidableEq P] in
theorem EntryOf.normalizedPath_current (h : EntryOf paths table entry row) :
    entry.normalized = normalizedPath entry.current := by
  rw [h.normalized, h.current]

omit [DecidableEq P] in
/-- The loop over the normalizations, from where some were made. -/
theorem runEach_normalizeRow {rows normalized : List ThreadRow} {run : ArchiveRun P C}
    (hopen : ∀ row ∈ rows, row ∈ openRows table) (hnodup : (normalized ++ rows).Pairwise fun row row' => row.id ≠ row'.id)
    (htable : run.table.rows = table.rows.map (settled now normalized [])) :
    ∃ err run', runEach (normalizeRow faults) rows run = (err, run') ∧ run'.nodes = run.nodes
      ∧ run'.moved = run.moved ∧ (err = none ↔ ∀ row ∈ rows, faults (.normalize row.id) = false)
      ∧ (err = none → run'.table.rows = table.rows.map (settled now (normalized ++ rows) [])) := by
  induction rows generalizing normalized run with
  | nil => exact ⟨none, run, rfl, rfl, rfl, by simp, fun _ => by rw [List.append_nil, htable]⟩
  | cons row rest ih =>
    rw [List.forall_mem_cons] at hopen
    rw [runEach, normalizeRow]
    cases hfault : faults (.normalize row.id) with
    | true => exact ⟨_, run, rfl, rfl, rfl, by simp [hfault], fun h => nomatch h⟩
    | false =>
      have hnew : row.id ∉ normalized.map ThreadRow.id := by
        intro hmem
        obtain ⟨other, hother, hkey⟩ := List.mem_map.mp hmem
        exact (List.pairwise_append.mp hnodup).2.2 other hother row List.mem_cons_self hkey
      have hrows := normalizeRow_of_settled hopen.1 hnew htable
      rw [List.append_cons normalized row rest] at hnodup ⊢
      obtain ⟨err, run', hrun, hnodes, hmoved, hworks, htable'⟩ := @ih _ ⟨_, _, _, _⟩ hopen.2 hnodup hrows
      refine ⟨err, run', hrun, hnodes, hmoved, ?_, htable'⟩
      rw [hworks, List.forall_mem_cons, hfault]
      simp only [true_and]

/-- The ends of the renames. -/
def endsOf (paths : ArchivePaths P) (entries : List ArchiveEntry) : List (P × P) :=
  entries.map fun entry => (paths.place entry.normalized, paths.place entry.destination)

/-- No rename and no update fails. -/
structure ArchivesWork (paths : ArchivePaths P) (faults : ArchiveStep → Bool) (starts : List P)
    (entries : List ArchiveEntry) : Prop where
  apart : (entries.map fun entry => paths.place entry.normalized).Nodup
  fresh : ∀ entry ∈ entries, paths.place entry.normalized ∉ starts
  faults : ∀ entry ∈ entries, faults (.rename entry.id) = false ∧ faults (.archive entry.id) = false

omit [DecidableEq P] in
theorem archivesWork_cons {starts : List P} {rest : List ArchiveEntry} :
    ArchivesWork paths faults starts (entry :: rest) ↔ paths.place entry.normalized ∉ starts
      ∧ faults (.rename entry.id) = false ∧ faults (.archive entry.id) = false
      ∧ ArchivesWork paths faults (paths.place entry.normalized :: starts) rest := by
  constructor
  · rintro ⟨hapart, hfresh, hfaults⟩
    rw [List.map_cons, List.nodup_cons] at hapart
    rw [List.forall_mem_cons] at hfresh hfaults
    refine ⟨hfresh.1, hfaults.1.1, hfaults.1.2, hapart.2, fun other hother => ?_, hfaults.2⟩
    rw [List.mem_cons, not_or]
    exact ⟨fun heq => hapart.1 (heq ▸ List.mem_map_of_mem hother), hfresh.2 other hother⟩
  · rintro ⟨hfresh, hrename, harchive, hrest⟩
    refine ⟨?_, List.forall_mem_cons.mpr ⟨hfresh, fun other hother => ?_⟩,
      List.forall_mem_cons.mpr ⟨⟨hrename, harchive⟩, hrest.faults⟩⟩
    · rw [List.map_cons, List.nodup_cons]
      refine ⟨fun hmem => ?_, hrest.apart⟩
      obtain ⟨other, hother, heq⟩ := List.mem_map.mp hmem
      exact hrest.fresh other hother (heq ▸ List.mem_cons_self)
    · exact fun hmem => hrest.fresh other hother (List.mem_cons_of_mem _ hmem)

theorem movesMade_of_works {starts : List P} {entries : List ArchiveEntry}
    (h : ArchivesWork paths faults starts entries) : movesMade paths faults starts entries = entries := by
  induction entries generalizing starts with
  | nil => rfl
  | cons entry rest ih =>
    obtain ⟨hfresh, hrename, harchive, hrest⟩ := archivesWork_cons.mp h
    rw [movesMade, if_neg (by simp [hrename, hfresh]), if_neg (by rw [harchive]; decide), ih hrest]

/-- Where the renames start from files and end at free places. -/
structure ReadyToMove (paths : ArchivePaths P) (starts : List P) (entries : List ArchiveEntry) (nodes : Places P C) :
    Prop where
  sources : ∀ entry ∈ entries, (nodes.fileAt (paths.place entry.normalized)).isSome
    ↔ paths.place entry.normalized ∉ starts
  clear : ∀ entry ∈ entries, (nodes (paths.place entry.normalized)).any PlaceNode.isFolder = false
  stops : ∀ entry ∈ entries, (nodes (paths.place entry.destination)).any PlaceNode.isFolder = false
  apart : ∀ entry ∈ entries, ∀ other ∈ entries, paths.place entry.normalized ≠ paths.place other.destination

theorem ReadyToMove.move {starts : List P} {rest : List ArchiveEntry}
    (h : ReadyToMove paths starts (entry :: rest) nodes) :
    ReadyToMove paths (paths.place entry.normalized :: starts) rest
      (nodes.move (paths.place entry.normalized) (paths.place entry.destination)) where
  sources other hother := by
    have hstop := h.apart other (List.mem_cons_of_mem _ hother) entry List.mem_cons_self
    by_cases hstart : paths.place other.normalized = paths.place entry.normalized
    · rw [hstart, fileAt, move_start (hstart ▸ hstop)]
      simp
    · rw [fileAt_congr (move_other hstart hstop), h.sources other (List.mem_cons_of_mem _ hother), List.mem_cons, not_or]
      exact (and_iff_right hstart).symm
  clear other hother := by
    have hstop := h.apart other (List.mem_cons_of_mem _ hother) entry List.mem_cons_self
    by_cases hstart : paths.place other.normalized = paths.place entry.normalized
    · rw [hstart, move_start (hstart ▸ hstop)]
      rfl
    · rw [move_other hstart hstop]
      exact h.clear other (List.mem_cons_of_mem _ hother)
  stops other hother := by
    have hstart := h.apart entry List.mem_cons_self other (List.mem_cons_of_mem _ hother)
    by_cases hstop : paths.place other.destination = paths.place entry.destination
    · rw [hstop, move_stop]
      exact h.clear entry List.mem_cons_self
    · rw [move_other hstart.symm hstop]
      exact h.stops other (List.mem_cons_of_mem _ hother)
  apart other hother other' hother' :=
    h.apart other (List.mem_cons_of_mem _ hother) other' (List.mem_cons_of_mem _ hother')

/-- The loop over the archives, from where some were made. -/
theorem runEach_archiveFile {normalized : List ThreadRow} {starts : List P} {done entries : List ArchiveEntry}
    {run : ArchiveRun P C} (hentries : ∀ entry ∈ entries, ∃ row, EntryOf paths table entry row)
    (hnodup : (done ++ entries).Pairwise fun entry entry' => entry.id ≠ entry'.id)
    (hready : ReadyToMove paths starts entries run.nodes)
    (htable : run.table.rows = table.rows.map (settled now normalized done)) :
    ∃ err run', runEach (archiveFile paths faults now) entries run = (err, run')
      ∧ run'.nodes = moveAll (endsOf paths (movesMade paths faults starts entries)) run.nodes
      ∧ run'.moved = run.moved ++ endsOf paths (movesMade paths faults starts entries)
      ∧ (err = none ↔ ArchivesWork paths faults starts entries)
      ∧ (err = none → run'.table.rows = table.rows.map (settled now normalized (done ++ entries))) := by
  induction entries generalizing starts done run with
  | nil =>
    refine ⟨none, run, rfl, rfl, by simp [movesMade, endsOf], ?_, fun _ => by rw [List.append_nil, htable]⟩
    exact iff_of_true rfl ⟨List.nodup_nil, fun entry h => (by cases h), fun entry h => (by cases h)⟩
  | cons entry rest ih =>
    obtain ⟨row, hrow⟩ := hentries entry List.mem_cons_self
    have hnew : ∀ other ∈ done, other.id ≠ entry.id := fun other hother =>
      (List.pairwise_append.mp hnodup).2.2 other hother entry List.mem_cons_self
    rw [runEach, archiveFile, movesMade, archivesWork_cons]
    dsimp only
    have hblocked : (faults (.rename entry.id) || (run.nodes.fileAt (paths.place entry.normalized)).isNone
        || (run.nodes (paths.place entry.destination)).any PlaceNode.isFolder)
        = (faults (.rename entry.id) || paths.place entry.normalized ∈ starts) := by
      rw [hready.stops entry List.mem_cons_self, Bool.or_false, ← Option.not_isSome]
      congr 1
      have hsource := hready.sources entry List.mem_cons_self
      cases hfile : (run.nodes.fileAt (paths.place entry.normalized)).isSome with
      | true => simpa using hsource.mp hfile
      | false =>
        rw [hfile] at hsource
        simpa using hsource
    rw [hblocked]
    by_cases hfails : (faults (.rename entry.id) || paths.place entry.normalized ∈ starts) = true
    · rw [if_pos hfails, if_pos hfails]
      refine ⟨_, run, rfl, rfl, by simp [endsOf], iff_of_false (fun h => nomatch h) ?_, fun h => nomatch h⟩
      rintro ⟨hfresh, hrename, -, -⟩
      rw [hrename, Bool.false_or, decide_eq_true_eq] at hfails
      exact hfresh hfails
    · rw [if_neg hfails, if_neg hfails]
      rw [Bool.not_eq_true, Bool.or_eq_false_iff, decide_eq_false_iff_not] at hfails
      cases harchive : faults (.archive entry.id) with
      | true => exact ⟨_, _, rfl, rfl, rfl, by simp, fun h => nomatch h⟩
      | false =>
        obtain ⟨hrows, hcount⟩ := archive_of_settled hrow hnew htable
        rw [if_neg Bool.false_ne_true, if_neg Bool.false_ne_true, hcount, if_neg (by decide)]
        rw [List.append_cons done entry rest] at hnodup ⊢
        obtain ⟨err, run', hrun, hnodes, hmoved, hworks, htable'⟩ := @ih _ _ ⟨_, _, _, _⟩
          (fun other hother => hentries other (List.mem_cons_of_mem _ hother)) hnodup hready.move hrows
        refine ⟨err, run', hrun, hnodes, ?_, ?_, htable'⟩
        · rw [hmoved, List.append_assoc]
          rfl
        · rw [hworks]
          simp only [hfails, not_false_eq_true, true_and]

omit [DecidableEq P] in
/-- The loop over the files that are moved already. -/
theorem runEach_archiveMoved {normalized : List ThreadRow} {done entries : List ArchiveEntry}
    {run : ArchiveRun P C} (hentries : ∀ entry ∈ entries, ∃ row, EntryOf paths table entry row)
    (hnodup : (done ++ entries).Pairwise fun entry entry' => entry.id ≠ entry'.id)
    (htable : run.table.rows = table.rows.map (settled now normalized done)) :
    ∃ err run', runEach (archiveMoved faults now) entries run = (err, run') ∧ run'.nodes = run.nodes
      ∧ run'.moved = run.moved ∧ (err = none ↔ ∀ entry ∈ entries, faults (.archive entry.id) = false)
      ∧ (err = none → run'.table.rows = table.rows.map (settled now normalized (done ++ entries))) := by
  induction entries generalizing done run with
  | nil => exact ⟨none, run, rfl, rfl, rfl, by simp, fun _ => by rw [List.append_nil, htable]⟩
  | cons entry rest ih =>
    obtain ⟨row, hrow⟩ := hentries entry List.mem_cons_self
    have hnew : ∀ other ∈ done, other.id ≠ entry.id := fun other hother =>
      (List.pairwise_append.mp hnodup).2.2 other hother entry List.mem_cons_self
    rw [runEach, archiveMoved]
    cases hfault : faults (.archive entry.id) with
    | true => exact ⟨_, run, rfl, rfl, rfl, by simp [hfault], fun h => nomatch h⟩
    | false =>
      obtain ⟨hrows, hcount⟩ := archive_of_settled hrow hnew htable
      rw [if_neg Bool.false_ne_true]
      dsimp only
      rw [hrow.normalizedPath_current, hcount, if_pos rfl]
      rw [List.append_cons done entry rest] at hnodup ⊢
      obtain ⟨err, run', hrun, hnodes, hmoved, hworks, htable'⟩ := @ih _ ⟨_, _, _, _⟩
        (fun other hother => hentries other (List.mem_cons_of_mem _ hother)) hnodup hrows
      refine ⟨err, run', hrun, hnodes, hmoved, ?_, htable'⟩
      rw [hworks, List.forall_mem_cons, hfault]
      simp only [true_and]

/-- The folders that are made stand where no file is. -/
theorem createRoot_apply {created : Places P C} (h : createRoot paths nodes = some created) (place : P) :
    created place = (if place ∈ paths.roots then some .folder else nodes place)
      ∧ (place ∈ paths.roots → nodes.fileAt place = none) := by
  unfold createRoot at h
  split at h
  · cases h
  · rename_i hno
    refine ⟨(congrFun (Option.some.inj h) place).symm, fun hroot => ?_⟩
    rw [Bool.not_eq_true, List.any_eq_false] at hno
    simpa using hno place hroot

theorem fileAt_createRoot {created : Places P C} (h : createRoot paths nodes = some created) (place : P) :
    created.fileAt place = nodes.fileAt place := by
  obtain ⟨hcreated, hno⟩ := createRoot_apply h place
  by_cases hroot : place ∈ paths.roots
  · rw [if_pos hroot] at hcreated
    rw [hno hroot, fileAt, hcreated]
  · rw [if_neg hroot] at hcreated
    exact fileAt_congr hcreated

theorem createRoot_of_notMem {created : Places P C} (h : createRoot paths nodes = some created) {place : P}
    (hplace : place ∉ paths.roots) : created place = nodes place := by
  rw [(createRoot_apply h place).1, if_neg hplace]

omit [DecidableEq P] in
/-- No row is in two entries. -/
theorem nodup_planned (paths : ArchivePaths P) (attempted : List String) (nodes : Places P C) (table : ThreadTable) :
    (plannedArchives paths attempted nodes table ++ plannedMovedOnly paths attempted nodes table).Pairwise
      fun entry entry' => entry.id ≠ entry'.id := by
  have hentries := nodup_entries paths attempted table
  refine List.pairwise_append.mpr ⟨hentries.filter _, hentries.filter _, fun entry hentry other hother hkey => ?_⟩
  have hsame : entry = other := List.inj_on_of_nodup_map (List.pairwise_map.mpr hentries)
    (List.mem_filter.mp hentry).1 (List.mem_filter.mp hother).1 hkey
  have hfile := (mem_plannedArchives hentry).2.1
  rw [hsame, isFile, fileAt, (mem_plannedMovedOnly hother).2.1] at hfile
  cases hfile

omit [DecidableEq P] in
/-- The sources are files and the destinations free. -/
theorem source_ne_destination {other : ArchiveEntry} (hentry : entry ∈ plannedArchives paths attempted nodes table)
    (hother : other ∈ plannedArchives paths attempted nodes table) :
    paths.place entry.normalized ≠ paths.place other.destination := by
  intro hsame
  have hfile := (mem_plannedArchives hentry).2.1
  rw [isFile, fileAt, hsame, (mem_plannedArchives hother).2.2] at hfile
  cases hfile

/-- A destination is not the archive folder. -/
theorem created_destination {created : Places P C} (h : createRoot paths nodes = some created)
    (hentry : entry ∈ plannedArchives paths attempted nodes table) :
    created (paths.place entry.destination) = none := by
  obtain ⟨⟨row, hrow⟩, -, hfree⟩ := mem_plannedArchives hentry
  obtain ⟨name, hname, hdestination⟩ := hrow.named
  rw [createRoot_of_notMem h (by rw [hdestination]; exact paths.inside _ name hname), hfree]

theorem created_source {created : Places P C} (h : createRoot paths nodes = some created)
    (hentry : entry ∈ plannedArchives paths attempted nodes table) :
    (created.fileAt (paths.place entry.normalized)).isSome = true := by
  rw [fileAt_createRoot h]
  exact (mem_plannedArchives hentry).2.1

theorem readyToMove {created : Places P C} (h : createRoot paths nodes = some created) :
    ReadyToMove paths [] (plannedArchives paths attempted nodes table) created where
  sources entry hentry := iff_of_true (created_source h hentry) List.not_mem_nil
  clear entry hentry := by
    obtain ⟨content, hcontent⟩ := Option.isSome_iff_exists.mp (created_source h hentry)
    rw [fileAt_eq_some_iff.mp hcontent]
    rfl
  stops entry hentry := by
    rw [created_destination h hentry]
    rfl
  apart _ hentry _ hother := source_ne_destination hentry hother

/-! ## The whole repair -/

variable (paths attempted faults now table nodes) in
/-- What is done in the transaction. -/
theorem repairThreads_planned {created : Places P C} (h : createRoot paths nodes = some created) :
    ∃ err run, repairThreads paths faults now (plannedNormalizations paths nodes table)
        (plannedArchives paths attempted nodes table) (plannedMovedOnly paths attempted nodes table)
        ⟨table, created, [], {}⟩ = (err, run)
      ∧ (∀ moves, (if (plannedNormalizations paths nodes table).all fun row => !faults (.normalize row.id) then
          movesMade paths faults [] (plannedArchives paths attempted nodes table) else []) = moves →
        run.nodes = moveAll (endsOf paths moves) created ∧ run.moved = endsOf paths moves)
      ∧ (err = none ↔ ((plannedNormalizations paths nodes table).all fun row => !faults (.normalize row.id)) = true
        ∧ ArchivesWork paths faults [] (plannedArchives paths attempted nodes table)
        ∧ ∀ entry ∈ plannedMovedOnly paths attempted nodes table, faults (.archive entry.id) = false)
      ∧ (err = none → run.table.rows = table.rows.map (settled now (plannedNormalizations paths nodes table)
          (plannedArchives paths attempted nodes table ++ plannedMovedOnly paths attempted nodes table))) := by
  have hsame : table.rows = table.rows.map (settled now [] []) := by
    rw [show settled now [] [] = id from rfl, List.map_id]
  have hids := nodup_planned paths attempted nodes table
  obtain ⟨err, run, hrun, hnodes, hmoved, hworks, htable⟩ := @runEach_normalizeRow P C faults now table
    (plannedNormalizations paths nodes table) [] ⟨table, created, [], {}⟩
    (fun row hrow => List.mem_of_mem_filter hrow) ((nodup_openRows table).filter _) hsame
  have hall : ((plannedNormalizations paths nodes table).all fun row => !faults (.normalize row.id)) = true
      ↔ err = none := by
    rw [hworks, List.all_eq_true]
    simp only [Bool.not_eq_true']
  unfold repairThreads
  rw [hrun]
  cases err with
  | some e =>
    have hsome := Option.some_ne_none e
    refine ⟨some e, run, rfl, ?_, iff_of_false hsome fun h => hsome (hall.mp h.1), fun h => absurd h hsome⟩
    rintro moves rfl
    rw [if_neg fun h => hsome (hall.mp h)]
    exact ⟨hnodes, hmoved⟩
  | none =>
    dsimp only
    obtain ⟨err, run₁, hrun₁, hnodes₁, hmoved₁, hworks₁, htable₁⟩ := @runEach_archiveFile P C _ paths faults now table
      (plannedNormalizations paths nodes table) [] [] (plannedArchives paths attempted nodes table) run
      (fun entry hentry => (mem_plannedArchives hentry).1) (List.pairwise_append.mp hids).1
      (hnodes ▸ readyToMove h) (htable rfl)
    have hmoves : ∀ moves, (if (plannedNormalizations paths nodes table).all fun row => !faults (.normalize row.id) then
        movesMade paths faults [] (plannedArchives paths attempted nodes table) else []) = moves →
        run₁.nodes = moveAll (endsOf paths moves) created ∧ run₁.moved = endsOf paths moves := by
      rintro moves rfl
      rw [if_pos (hall.mpr rfl), hnodes₁, hmoved₁, hnodes, hmoved]
      exact ⟨rfl, rfl⟩
    rw [hrun₁]
    cases err with
    | some e =>
      have hsome := Option.some_ne_none e
      exact ⟨some e, run₁, rfl, hmoves, iff_of_false hsome fun h => hsome (hworks₁.mpr h.2.1), fun h => absurd h hsome⟩
    | none =>
      dsimp only
      obtain ⟨err, run₂, hrun₂, hnodes₂, hmoved₂, hworks₂, htable₂⟩ := @runEach_archiveMoved P C paths faults now table
        (plannedNormalizations paths nodes table) (plannedArchives paths attempted nodes table)
        (plannedMovedOnly paths attempted nodes table) run₁ (fun entry hentry => (mem_plannedMovedOnly hentry).1)
        hids (htable₁ rfl)
      refine ⟨err, run₂, hrun₂, fun moves hmade => ?_, ?_, htable₂⟩
      · rw [hnodes₂, hmoved₂]
        exact hmoves moves hmade
      · rw [hworks₂, hall, ← hworks₁]
        simp only [true_and]

/-- A call that changes neither the rows nor the files. -/
theorem keepsInStep_of_unchanged {isThere : Bool}
    (hrows : (reconcileCodexArchivesAt paths attempted faults now isThere table nodes).2.1.rows = table.rows)
    (hfiles : ∀ place, (reconcileCodexArchivesAt paths attempted faults now isThere table nodes).2.2.fileAt place
      = nodes.fileAt place) : KeepsInStep paths attempted faults now isThere table nodes := by
  have hnone : ∀ row row',
      ¬ ArchivedRow table (reconcileCodexArchivesAt paths attempted faults now isThere table nodes).2.1 row row' := by
    rintro row row' ⟨hmem, hopen, harchived⟩
    rw [hrows] at hmem
    have hsame : row = row' := by
      obtain ⟨place, hplace⟩ := List.getElem?_of_mem hmem
      rw [List.getElem?_zip_eq_some] at hplace
      exact Option.some.inj (hplace.1.symm.trans hplace.2)
    exact harchived (hsame ▸ hopen)
  refine ⟨fun e _ => ⟨hrows, hfiles⟩, fun _ _ => ?_, fun _ _ row row' h => absurd h (hnone row row'),
    fun _ _ place content h => .inl ((hfiles place).trans h), fun _ _ row row' _ _ h => absurd h (hnone row row')⟩
  rw [hrows]
  exact List.forall₂_same.mpr fun row _ => .inr (.inl rfl)

/-- A call that fails and leaves a file elsewhere. -/
theorem not_keepsInStep_of_lost {isThere : Bool} {e : ArchiveError}
    (herror : (reconcileCodexArchivesAt paths attempted faults now isThere table nodes).1 = .error e)
    (hentry : entry ∈ plannedArchives paths attempted nodes table)
    (hgone : (reconcileCodexArchivesAt paths attempted faults now isThere table nodes).2.2
      (paths.place entry.normalized) = none) : ¬ KeepsInStep paths attempted faults now isThere table nodes := by
  intro hkeeps
  have hsame := (hkeeps.failed e herror).2 (paths.place entry.normalized)
  rw [fileAt, hgone] at hsame
  have hfile := (mem_plannedArchives hentry).2.1
  rw [isFile, ← hsame] at hfile
  cases hfile

theorem firstFault_eq_none_iff (steps : List ArchiveStep) :
    firstFault faults steps = none ↔ steps.all (!faults ·) = true := by
  rw [firstFault, Option.map_eq_none_iff, List.find?_eq_none, List.all_eq_true]
  simp only [Bool.not_eq_true, Bool.not_eq_true']

variable (attempted now) in
/-- What is done before the first file is moved changes neither the rows nor the files. -/
theorem unchanged_of_not_reaches {isThere : Bool} (h : reachesMoves paths faults isThere table nodes = false) :
    (reconcileCodexArchivesAt paths attempted faults now isThere table nodes).2.1.rows = table.rows
      ∧ ∀ place, (reconcileCodexArchivesAt paths attempted faults now isThere table nodes).2.2.fileAt place
        = nodes.fileAt place := by
  unfold reconcileCodexArchivesAt
  cases isThere with
  | false => exact ⟨rfl, fun _ => rfl⟩
  | true =>
    rw [Bool.not_true, if_neg Bool.false_ne_true]
    cases hopen : firstFault faults [.readLogs, .openStore, .quickCheck, .readRows] with
    | some e => exact ⟨rfl, fun _ => rfl⟩
    | none =>
      dsimp only
      split
      · exact ⟨rfl, fun _ => rfl⟩
      · cases hbackup : firstFault faults [.backup, .createRoot] with
        | some e => exact ⟨rfl, fun _ => rfl⟩
        | none =>
          dsimp only
          cases hcreated : createRoot paths nodes with
          | none => exact ⟨rfl, fun _ => rfl⟩
          | some created =>
            dsimp only
            have hfiles := fileAt_createRoot hcreated
            cases hbegin : faults .begin with
            | true =>
              rw [if_pos rfl]
              exact ⟨rfl, hfiles⟩
            | false =>
              rw [if_neg Bool.false_ne_true]
              have hroots : (paths.roots.all fun root => (nodes.fileAt root).isNone) = true := by
                rw [List.all_eq_true]
                intro root hroot
                rw [(createRoot_apply hcreated root).2 hroot]
                rfl
              have hnormalizes : ((plannedNormalizations paths nodes table).all fun row =>
                  !faults (.normalize row.id)) = false := by
                rw [firstFault_eq_none_iff] at hopen hbackup
                unfold reachesMoves at h
                rw [hroots, Bool.true_and, Bool.and_true] at h
                simp only [List.all_cons, List.all_nil, Bool.and_true, Bool.and_eq_true] at hopen hbackup
                simpa [hopen, hbackup, hbegin] using h
              obtain ⟨err, run, hrun, hmoves, hworks, -⟩ :=
                repairThreads_planned paths attempted faults now table nodes hcreated
              rw [hrun]
              obtain ⟨hnodes, hmoved⟩ := hmoves [] (by rw [hnormalizes]; rfl)
              cases err with
              | none =>
                have hall := (hworks.mp rfl).1
                rw [hnormalizes] at hall
                cases hall
              | some e =>
                dsimp only
                rw [hmoved, hnodes]
                exact ⟨rfl, hfiles⟩

variable (attempted now) in
/-- A call in which nothing fails before the first file is moved. -/
theorem reconcile_of_reaches {isThere : Bool} (h : reachesMoves paths faults isThere table nodes = true) :
    reconcileCodexArchivesAt paths attempted faults now isThere table nodes =
      if (plannedNormalizations paths nodes table).isEmpty && (plannedArchives paths attempted nodes table).isEmpty
          && (plannedMovedOnly paths attempted nodes table).isEmpty then (.ok {}, table, nodes)
      else
        match createRoot paths nodes with
        | none => (.error (.failed .createRoot), table, nodes)
        | some created =>
          match repairThreads paths faults now (plannedNormalizations paths nodes table)
            (plannedArchives paths attempted nodes table) (plannedMovedOnly paths attempted nodes table)
            ⟨table, created, [], {}⟩ with
          | (some e, run) => (.error e, table, undoAll run.moved run.nodes)
          | (none, run) =>
            if faults .commit then (.error (.failed .commit), table, run.nodes)
            else (.ok run.summary, run.table, run.nodes) := by
  unfold reachesMoves at h
  simp only [Bool.and_eq_true, List.all_cons, List.all_nil, Bool.and_true] at h
  obtain ⟨⟨⟨hthere, hlogs, hopen, hcheck, hread, hbackup, hroot, hbegin⟩, -⟩, -⟩ := h
  unfold reconcileCodexArchivesAt
  rw [hthere, (firstFault_eq_none_iff _).mpr (by simp [hlogs, hopen, hcheck, hread]),
    (firstFault_eq_none_iff _).mpr (by simp [hbackup, hroot])]
  rw [Bool.not_eq_true'] at hbegin
  simp only [Bool.not_true, Bool.false_eq_true, if_false, hbegin]

/-! ## The moves that are made -/

theorem movesMade_sublist (starts : List P) (entries : List ArchiveEntry) :
    (movesMade paths faults starts entries).Sublist entries := by
  induction entries generalizing starts with
  | nil => exact List.Sublist.slnil
  | cons entry rest ih =>
    rw [movesMade]
    split
    · exact List.nil_sublist _
    · split
      · exact (List.nil_sublist rest).cons_cons entry
      · exact (ih _).cons_cons entry

/-- No file is moved twice. -/
theorem nodup_movesMade (starts : List P) (entries : List ArchiveEntry) :
    ((movesMade paths faults starts entries).map fun entry => paths.place entry.normalized).Nodup
      ∧ ∀ entry ∈ movesMade paths faults starts entries, paths.place entry.normalized ∉ starts := by
  induction entries generalizing starts with
  | nil => exact ⟨List.nodup_nil, fun entry h => (by cases h)⟩
  | cons entry rest ih =>
    rw [movesMade]
    split
    · exact ⟨List.nodup_nil, fun entry h => (by cases h)⟩
    · rename_i hmoves
      rw [Bool.not_eq_true, Bool.or_eq_false_iff, decide_eq_false_iff_not] at hmoves
      split
      · exact ⟨List.nodup_singleton _, fun other hother => by rw [List.mem_singleton.mp hother]; exact hmoves.2⟩
      · obtain ⟨hnodup, hfresh⟩ := ih (paths.place entry.normalized :: starts)
        constructor
        · rw [List.map_cons, List.nodup_cons]
          refine ⟨fun hmem => ?_, hnodup⟩
          obtain ⟨other, hother, hsame⟩ := List.mem_map.mp hmem
          exact hfresh other hother (hsame ▸ List.mem_cons_self)
        · rw [List.forall_mem_cons]
          exact ⟨hmoves.2, fun other hother hmem => hfresh other hother (List.mem_cons_of_mem _ hmem)⟩

omit [DecidableEq P] in
theorem starts_endsOf (entries : List ArchiveEntry) :
    (endsOf paths entries).map Prod.fst = entries.map fun entry => paths.place entry.normalized := by
  rw [endsOf, List.map_map]
  rfl

omit [DecidableEq P] in
theorem stops_endsOf (entries : List ArchiveEntry) :
    (endsOf paths entries).map Prod.snd = entries.map fun entry => paths.place entry.destination := by
  rw [endsOf, List.map_map]
  rfl

/-- Some of the planned moves, each of another file. -/
structure SomeMoves (paths : ArchivePaths P) (attempted : List String) (nodes : Places P C) (table : ThreadTable)
    (moves : List ArchiveEntry) : Prop where
  planned : ∀ entry ∈ moves, entry ∈ plannedArchives paths attempted nodes table
  apart : (moves.map fun entry => paths.place entry.normalized).Nodup

variable (paths attempted faults table nodes) in
theorem someMoves_movesMade : SomeMoves paths attempted nodes table
    (movesMade paths faults [] (plannedArchives paths attempted nodes table)) :=
  ⟨fun _ hentry => (movesMade_sublist [] _).subset hentry, (nodup_movesMade [] _).1⟩

namespace SomeMoves

variable {moves : List ArchiveEntry} {created : Places P C}

omit [DecidableEq P] in
theorem start_notMem (h : SomeMoves paths attempted nodes table moves) :
    ∀ m ∈ endsOf paths moves, m.1 ∉ (endsOf paths moves).map Prod.snd := by
  intro m hm hmem
  obtain ⟨entry, hentry, rfl⟩ := List.mem_map.mp hm
  rw [stops_endsOf] at hmem
  obtain ⟨other, hother, hsame⟩ := List.mem_map.mp hmem
  exact source_ne_destination (h.planned entry hentry) (h.planned other hother) hsame.symm

/-- Files with places of their own are moved back. -/
theorem undone (h : SomeMoves paths attempted nodes table moves) (hcreated : createRoot paths nodes = some created)
    (hnodup : (moves.map fun entry => paths.place entry.destination).Nodup) :
    undoAll (endsOf paths moves) (moveAll (endsOf paths moves) created) = created := by
  refine undoAll_moveAll (starts_endsOf moves ▸ h.apart) (stops_endsOf moves ▸ hnodup) ?_ ?_
  · intro m hm
    obtain ⟨entry, hentry, rfl⟩ := List.mem_map.mp hm
    exact created_source hcreated (h.planned entry hentry)
  · intro m hm
    obtain ⟨entry, hentry, rfl⟩ := List.mem_map.mp hm
    exact created_destination hcreated (h.planned entry hentry)

/-- Nothing is left where a file was. -/
theorem moved_start (h : SomeMoves paths attempted nodes table moves) {entry : ArchiveEntry} (hentry : entry ∈ moves) :
    moveAll (endsOf paths moves) created (paths.place entry.normalized) = none := by
  have hmem : (paths.place entry.normalized, paths.place entry.destination) ∈ endsOf paths moves :=
    List.mem_map_of_mem hentry
  exact moveAll_start (List.mem_map_of_mem hmem) (h.start_notMem _ hmem)

/-- A moved file stands at its destination, if the destinations differ. -/
theorem moved_stop (h : SomeMoves paths attempted nodes table moves)
    (hnodup : (moves.map fun entry => paths.place entry.destination).Nodup) {entry : ArchiveEntry}
    (hentry : entry ∈ moves) : moveAll (endsOf paths moves) created (paths.place entry.destination)
      = created (paths.place entry.normalized) := by
  have hmem : (paths.place entry.normalized, paths.place entry.destination) ∈ endsOf paths moves :=
    List.mem_map_of_mem hentry
  exact moveAll_stop (starts_endsOf moves ▸ h.apart) (stops_endsOf moves ▸ hnodup) h.start_notMem hmem

/-- Of two files that were moved to one place, one is lost. -/
theorem lost (h : SomeMoves paths attempted nodes table moves) (hcreated : createRoot paths nodes = some created)
    (hnodup : ¬ (moves.map fun entry => paths.place entry.destination).Nodup) :
    ∃ entry ∈ moves, undoAll (endsOf paths moves) (moveAll (endsOf paths moves) created)
      (paths.place entry.normalized) = none := by
  have hfiles : ∀ m ∈ endsOf paths moves, (created.fileAt m.1).isSome := by
    intro m hm
    obtain ⟨entry, hentry, rfl⟩ := List.mem_map.mp hm
    exact created_source hcreated (h.planned entry hentry)
  have hnode : ∀ m ∈ endsOf paths moves, moveAll (endsOf paths moves) created m.2 = none
      ∨ ((moveAll (endsOf paths moves) created).fileAt m.2).isSome := fun m hm =>
    .inr (isSome_fileAt_moveAll (starts_endsOf moves ▸ h.apart) h.start_notMem hfiles (List.mem_map_of_mem hm))
  obtain ⟨m, hm, hlost⟩ := undoAll_lost (starts_endsOf moves ▸ h.apart) h.start_notMem
    (fun m hm => by
      obtain ⟨entry, hentry, rfl⟩ := List.mem_map.mp hm
      exact h.moved_start hentry) hnode (stops_endsOf moves ▸ hnodup)
  obtain ⟨entry, hentry, rfl⟩ := List.mem_map.mp hm
  exact ⟨entry, hentry, hlost⟩

end SomeMoves

/-! ## A call that ends well -/

omit [DecidableEq P] in
/-- A row of an entry is archived, another one keeps all but a prefix of its path. -/
theorem settled_cases (now : ℤ) (hrow : row ∈ table.rows) {done : List ArchiveEntry}
    (hdone : ∀ entry ∈ done, ∃ row, EntryOf paths table entry row) :
    (∃ entry ∈ done, EntryOf paths table entry row
      ∧ settled now (plannedNormalizations paths nodes table) done row = row.set entry.destination (some now))
    ∨ RowKept paths nodes row (settled now (plannedNormalizations paths nodes table) done row) := by
  unfold settled
  cases hfind : done.find? (·.id = row.id) with
  | some entry =>
    have hmem := List.mem_of_find?_eq_some hfind
    have hid := List.find?_some hfind
    rw [decide_eq_true_eq] at hid
    obtain ⟨other, hother⟩ := hdone entry hmem
    have hsame : other = row := List.inj_on_of_nodup_map table.nodup hother.mem hrow (hother.id.symm.trans hid)
    exact .inl ⟨entry, hmem, hsame ▸ hother, rfl⟩
  | none =>
    dsimp only
    split
    · rename_i hmem
      obtain ⟨other, hother, hid⟩ := List.mem_map.mp hmem
      have hsame : other = row := List.inj_on_of_nodup_map table.nodup
        (mem_openRows.mp (List.mem_of_mem_filter hother)).1 hrow hid
      exact .inr (.inr ⟨hsame ▸ (List.mem_filter.mp hother).2, rfl⟩)
    · exact .inr (.inl rfl)

omit [DecidableEq P] in
/-- The row of an entry. -/
theorem settled_of_entry {normalized : List ThreadRow} {done : List ArchiveEntry} (hentry : EntryOf paths table entry row)
    (hmem : entry ∈ done) (hnodup : done.Pairwise fun entry entry' => entry.id ≠ entry'.id) :
    settled now normalized done row = row.set entry.destination (some now) := by
  have hfind : done.find? (·.id = row.id) = some entry := by
    cases hfound : done.find? (·.id = row.id) with
    | none =>
      rw [List.find?_eq_none] at hfound
      exact absurd (decide_eq_true hentry.id) (hfound entry hmem)
    | some other =>
      have hid := List.find?_some hfound
      rw [decide_eq_true_eq, ← hentry.id] at hid
      rw [List.inj_on_of_nodup_map (List.pairwise_map.mpr hnodup) (List.mem_of_find?_eq_some hfound) hmem hid]
  unfold settled
  rw [hfind]

/-- The outcome of a call whose transaction is committed. -/
structure Committed (paths : ArchivePaths P) (attempted : List String) (now : ℤ) (table : ThreadTable)
    (nodes : Places P C) (created : Places P C) (after : ThreadTable) (nodes' : Places P C) : Prop where
  root : createRoot paths nodes = some created
  moves : SomeMoves paths attempted nodes table (plannedArchives paths attempted nodes table)
  rows : after.rows = table.rows.map (settled now (plannedNormalizations paths nodes table)
    (plannedArchives paths attempted nodes table ++ plannedMovedOnly paths attempted nodes table))
  nodes : nodes' = moveAll (endsOf paths (plannedArchives paths attempted nodes table)) created

namespace Committed

variable {created nodes' : Places P C} {after : ThreadTable}

theorem entryOf (h : Committed paths attempted now table nodes created after nodes') {row row' : ThreadRow}
    (harchived : ArchivedRow table after row row') :
    ∃ entry ∈ plannedArchives paths attempted nodes table ++ plannedMovedOnly paths attempted nodes table,
      EntryOf paths table entry row ∧ row' = row.set entry.destination (some now) := by
  obtain ⟨hmem, hopen, hset⟩ := harchived
  rw [h.rows, List.zip_map_right, List.mem_map] at hmem
  obtain ⟨⟨same, other⟩, hmem, hpair⟩ := hmem
  obtain ⟨rfl, rfl⟩ := Prod.mk.inj hpair
  have hsame : same = other := by
    obtain ⟨place, hplace⟩ := List.getElem?_of_mem hmem
    rw [List.getElem?_zip_eq_some] at hplace
    exact Option.some.inj (hplace.1.symm.trans hplace.2)
  dsimp only [id_eq] at *
  subst hsame
  have hdone : ∀ entry ∈ plannedArchives paths attempted nodes table ++ plannedMovedOnly paths attempted nodes table,
      ∃ row, EntryOf paths table entry row := by
    intro entry hentry
    rcases List.mem_append.mp hentry with hentry | hentry
    · exact (mem_plannedArchives hentry).1
    · exact (mem_plannedMovedOnly hentry).1
  rcases settled_cases now (List.of_mem_zip hmem).1 hdone with hentry | hkept
  · exact hentry
  · rcases hkept with hsame | ⟨-, hsame⟩
    · rw [hsame] at hset
      exact absurd hopen hset
    · rw [hsame] at hset
      exact absurd hopen hset

theorem archivedRow (h : Committed paths attempted now table nodes created after nodes')
    (hmem : entry ∈ plannedArchives paths attempted nodes table ++ plannedMovedOnly paths attempted nodes table)
    (hentry : EntryOf paths table entry row) :
    ArchivedRow table after row (row.set entry.destination (some now)) := by
  refine ⟨?_, hentry.isOpen, one_ne_zero⟩
  rw [h.rows, List.zip_map_right, List.mem_map]
  refine ⟨(row, row), ?_, ?_⟩
  · obtain ⟨place, hplace⟩ := List.getElem?_of_mem hentry.mem
    exact List.mem_of_getElem? (List.getElem?_zip_eq_some.mpr ⟨hplace, hplace⟩ : _ = some (row, row))
  · exact Prod.ext rfl (settled_of_entry hentry hmem (nodup_planned paths attempted nodes table))

/-- An archived row whose file was there is one whose file was moved. -/
theorem entryOf_isFile (h : Committed paths attempted now table nodes created after nodes') {row row' : ThreadRow}
    (harchived : ArchivedRow table after row row') (hfile : isFile paths nodes (normalizedPath row.rolloutPath) = true) :
    ∃ entry ∈ plannedArchives paths attempted nodes table, EntryOf paths table entry row
      ∧ row' = row.set entry.destination (some now) := by
  obtain ⟨entry, hmem, hentry, hrow'⟩ := h.entryOf harchived
  rcases List.mem_append.mp hmem with hmem | hmem
  · exact ⟨entry, hmem, hentry, hrow'⟩
  · rw [← hentry.normalized, isFile, fileAt, (mem_plannedMovedOnly hmem).2.1] at hfile
    cases hfile

/-- A file that was in the archive folder already is not moved. -/
theorem movedOnly_isFile (h : Committed paths attempted now table nodes created after nodes')
    (hmem : entry ∈ plannedMovedOnly paths attempted nodes table) : isFile paths nodes' entry.destination = true := by
  obtain ⟨⟨row, hrow⟩, -, hfile⟩ := mem_plannedMovedOnly hmem
  obtain ⟨name, hname, hdestination⟩ := hrow.named
  rw [isFile, h.nodes, fileAt_congr (moveAll_other ?_ ?_), fileAt_createRoot h.root]
  · exact hfile
  · -- a file there would have itself as its destination
    rw [starts_endsOf]
    intro hstart
    obtain ⟨other, hother, hsame⟩ := List.mem_map.mp hstart
    obtain ⟨⟨row', hrow'⟩, hfile', hfree⟩ := mem_plannedArchives hother
    obtain ⟨name', hname', hdestination'⟩ := hrow'.named
    rw [hdestination] at hsame
    rw [hdestination', paths.own _ _ name name' hname hname' hsame] at hfree
    rw [isFile, fileAt, hfree] at hfile'
    cases hfile'
  · rw [stops_endsOf]
    intro hstop
    obtain ⟨other, hother, hsame⟩ := List.mem_map.mp hstop
    rw [isFile, fileAt, ← hsame, (mem_plannedArchives hother).2.2] at hfile
    cases hfile

/-- A file stays, or is moved to its destination. -/
theorem files (h : Committed paths attempted now table nodes created after nodes')
    (hnodup : ((plannedArchives paths attempted nodes table).map fun entry => paths.place entry.destination).Nodup)
    {place : P} {content : C} (hfile : nodes.fileAt place = some content) :
    nodes'.fileAt place = some content
      ∨ ∃ entry ∈ plannedArchives paths attempted nodes table, paths.place entry.normalized = place
        ∧ nodes'.fileAt (paths.place entry.destination) = some content := by
  by_cases hstart : place ∈ (endsOf paths (plannedArchives paths attempted nodes table)).map Prod.fst
  · rw [starts_endsOf] at hstart
    obtain ⟨entry, hentry, rfl⟩ := List.mem_map.mp hstart
    refine .inr ⟨entry, hentry, rfl, ?_⟩
    rw [h.nodes, fileAt_congr (h.moves.moved_stop hnodup hentry), fileAt_createRoot h.root, hfile]
  · refine .inl ?_
    rw [h.nodes, fileAt_congr (moveAll_other hstart ?_), fileAt_createRoot h.root, hfile]
    rw [stops_endsOf]
    intro hstop
    obtain ⟨entry, hentry, rfl⟩ := List.mem_map.mp hstop
    rw [fileAt, (mem_plannedArchives hentry).2.2] at hfile
    cases hfile

end Committed

/-- A call that ends well does what it is to do exactly where the destinations of its moves differ. -/
theorem keepsInStep_of_committed {isThere : Bool} {summary : CodexArchiveRepairSummary} {after : ThreadTable}
    {created nodes' : Places P C} (h : Committed paths attempted now table nodes created after nodes')
    (hrun : reconcileCodexArchivesAt paths attempted faults now isThere table nodes = (.ok summary, after, nodes')) :
    KeepsInStep paths attempted faults now isThere table nodes ↔
      ((plannedArchives paths attempted nodes table).map fun entry => paths.place entry.destination).Nodup := by
  constructor
  · intro hkeeps
    have hapart := hkeeps.apart summary (by rw [hrun])
    rw [hrun] at hapart
    rw [List.Nodup, List.pairwise_map]
    have hsources := List.pairwise_map.mp h.moves.apart
    refine hsources.imp_of_mem fun hentry hother hne hsame => hne ?_
    rename_i entry other
    obtain ⟨⟨row, hrow⟩, hfile, -⟩ := mem_plannedArchives hentry
    obtain ⟨⟨row', hrow'⟩, hfile', -⟩ := mem_plannedArchives hother
    rw [hrow.normalized] at hfile ⊢
    rw [hrow'.normalized] at hfile' ⊢
    exact hapart row _ row' _ (h.archivedRow (List.mem_append_left _ hentry) hrow)
      (h.archivedRow (List.mem_append_left _ hother) hrow') hfile hfile' hsame
  · intro hnodup
    refine ⟨fun e he => ?_, fun _ _ => ?_, fun _ _ row row' harchived => ?_, fun _ _ place content hfile => ?_,
      fun _ _ row row' other other' hrow hother hfile hfile' hsame => ?_⟩
    · rw [hrun] at he
      cases he
    · rw [hrun, h.rows, List.forall₂_map_right_iff, List.forall₂_same]
      intro row hrow
      have hdone : ∀ entry ∈ plannedArchives paths attempted nodes table
          ++ plannedMovedOnly paths attempted nodes table, ∃ row, EntryOf paths table entry row := by
        intro entry hentry
        rcases List.mem_append.mp hentry with hentry | hentry
        · exact (mem_plannedArchives hentry).1
        · exact (mem_plannedMovedOnly hentry).1
      rcases settled_cases now hrow hdone with ⟨entry, -, hentry, hsettled⟩ | hkept
      · rw [hsettled]
        exact .inl ⟨hentry.isOpen, _, rfl⟩
      · exact .inr hkept
    · rw [hrun] at harchived ⊢
      obtain ⟨entry, hmem, hentry, rfl⟩ := h.entryOf harchived
      obtain ⟨name, -, hdestination⟩ := hentry.named
      rw [ThreadRow.rolloutPath_set]
      refine ⟨⟨name, hdestination⟩, ?_⟩
      rcases List.mem_append.mp hmem with hmem | hmem
      · rw [isFile, h.nodes, fileAt_congr (h.moves.moved_stop hnodup hmem)]
        exact created_source h.root hmem
      · exact h.movedOnly_isFile hmem
    · rw [hrun]
      rcases h.files hnodup hfile with hstays | ⟨entry, hmem, hsource, hmoved⟩
      · exact .inl hstays
      · obtain ⟨row, hentry⟩ := (mem_plannedArchives hmem).1
        refine .inr ⟨row, _, h.archivedRow (List.mem_append_left _ hmem) hentry, ?_, ?_⟩
        · rw [← hentry.normalized, hsource]
        · rw [ThreadRow.rolloutPath_set, hmoved]
    · rw [hrun] at hrow hother
      obtain ⟨entry, hmem, hentry, rfl⟩ := h.entryOf_isFile hrow hfile
      obtain ⟨entry', hmem', hentry', rfl⟩ := h.entryOf_isFile hother hfile'
      rw [ThreadRow.rolloutPath_set, ThreadRow.rolloutPath_set] at hsame
      rw [← hentry.normalized, ← hentry'.normalized, List.inj_on_of_nodup_map hnodup hmem hmem' hsame]

/-- Before the first file is moved the archive folder is there. -/
theorem exists_createRoot {isThere : Bool} (h : reachesMoves paths faults isThere table nodes = true) :
    ∃ created, createRoot paths nodes = some created := by
  unfold reachesMoves at h
  simp only [Bool.and_eq_true] at h
  unfold createRoot
  rw [if_neg]
  · exact ⟨_, rfl⟩
  · rw [Bool.not_eq_true, List.any_eq_false]
    intro root hroot
    rw [Bool.not_eq_true, Option.isSome_eq_false_iff]
    exact List.all_eq_true.mp h.1.2 root hroot

theorem renamesMade_of_reaches {isThere : Bool} (h : reachesMoves paths faults isThere table nodes = true) :
    renamesMade paths attempted faults isThere table nodes
      = movesMade paths faults [] (plannedArchives paths attempted nodes table) := by
  rw [renamesMade, h, if_pos rfl]

/-- A call does what it is to do, except where two files are moved to one place, or files are moved and the commit
fails. -/
theorem keepsInStep_iff (paths : ArchivePaths P) (attempted : List String) (faults : ArchiveStep → Bool) (now : ℤ)
    (isThere : Bool) (table : ThreadTable) (nodes : Places P C) :
    KeepsInStep paths attempted faults now isThere table nodes ↔
      ((renamesMade paths attempted faults isThere table nodes).map fun entry => paths.place entry.destination).Nodup
        ∧ ¬ CommitLost paths attempted faults isThere table nodes := by
  cases hreaches : reachesMoves paths faults isThere table nodes with
  | false =>
    obtain ⟨hrows, hfiles⟩ := unchanged_of_not_reaches attempted now hreaches
    refine iff_of_true (keepsInStep_of_unchanged hrows hfiles) ⟨?_, fun hlost => ?_⟩
    · rw [renamesMade, hreaches]
      exact List.nodup_nil
    · rw [hlost.reaches] at hreaches
      cases hreaches
  | true =>
    have hrun := reconcile_of_reaches attempted now hreaches
    rw [renamesMade_of_reaches hreaches]
    by_cases hnothing : ((plannedNormalizations paths nodes table).isEmpty
        && (plannedArchives paths attempted nodes table).isEmpty
        && (plannedMovedOnly paths attempted nodes table).isEmpty) = true
    · rw [if_pos hnothing] at hrun
      have hempty : plannedArchives paths attempted nodes table = [] := by
        simp only [Bool.and_eq_true, List.isEmpty_iff] at hnothing
        exact hnothing.1.2
      refine iff_of_true (keepsInStep_of_unchanged (by rw [hrun]) fun _ => by rw [hrun]) ⟨?_, fun h => h.moves hempty⟩
      rw [hempty]
      exact List.nodup_nil
    · obtain ⟨created, hcreated⟩ := exists_createRoot hreaches
      obtain ⟨err, run, hrepair, hmoves, hworks, hrows⟩ :=
        repairThreads_planned paths attempted faults now table nodes hcreated
      obtain ⟨hnodes, hmoved⟩ := hmoves _ (if_pos (by
        unfold reachesMoves at hreaches
        exact (Bool.and_eq_true_iff.mp hreaches).2))
      have hsome := someMoves_movesMade paths attempted faults table nodes
      rw [if_neg hnothing, hcreated] at hrun
      dsimp only at hrun
      rw [hrepair] at hrun
      cases err with
      | some e =>
        dsimp only at hrun
        rw [hmoved, hnodes] at hrun
        have hnotLost : ¬ CommitLost paths attempted faults isThere table nodes := fun hlost => by
          have hnone := hworks.mpr ⟨(Bool.and_eq_true_iff.mp hlost.reaches).2,
            ⟨hlost.apart, fun _ _ => List.not_mem_nil, hlost.renames⟩, hlost.movedOnly⟩
          cases hnone
        rw [and_iff_left hnotLost]
        constructor
        · intro hkeeps
          by_contra hnodup
          obtain ⟨entry, hentry, hgone⟩ := hsome.lost hcreated hnodup
          exact not_keepsInStep_of_lost (by rw [hrun]) (hsome.planned entry hentry) (by rw [hrun]; exact hgone) hkeeps
        · intro hnodup
          refine keepsInStep_of_unchanged (by rw [hrun]) fun place => ?_
          rw [hrun]
          dsimp only
          rw [hsome.undone hcreated hnodup, fileAt_createRoot hcreated]
      | none =>
        obtain ⟨-, hwork, hmovedOnly⟩ := hworks.mp rfl
        rw [movesMade_of_works hwork] at hnodes hmoved hsome ⊢
        dsimp only at hrun
        cases hcommit : faults .commit with
        | true =>
          rw [hcommit, if_pos rfl, hnodes] at hrun
          by_cases hempty : plannedArchives paths attempted nodes table = []
          · refine iff_of_true (keepsInStep_of_unchanged (by rw [hrun]) fun place => ?_) ⟨?_, fun h => h.moves hempty⟩
            · rw [hrun, hempty]
              exact fileAt_createRoot hcreated place
            · rw [hempty]
              exact List.nodup_nil
          · refine iff_of_false (fun hkeeps => ?_) fun h =>
              h.2 ⟨hreaches, hempty, hwork.apart, hwork.faults, hmovedOnly, hcommit⟩
            obtain ⟨entry, hentry⟩ := List.exists_mem_of_ne_nil _ hempty
            exact not_keepsInStep_of_lost (by rw [hrun]) hentry (by rw [hrun]; exact hsome.moved_start hentry) hkeeps
        | false =>
          rw [hcommit, if_neg Bool.false_ne_true] at hrun
          have hnotLost : ¬ CommitLost paths attempted faults isThere table nodes := fun hlost => by
            have hno := hlost.commit
            rw [hcommit] at hno
            cases hno
          rw [and_iff_left hnotLost]
          exact keepsInStep_of_committed ⟨hcreated, hsome, hrows rfl, hnodes⟩ hrun

/-- Two sessions of one name, and the archive folder. -/
def plainPaths : ArchivePaths String where
  place := id
  fileName path := if path = "sessions/a" ∨ path = "older/a" ∨ path = "archive/a" then some "a" else none
  archived name := "archive/" ++ name
  roots := ["archive"]
  inside path name h := by
    rw [Option.ite_none_right_eq_some] at h
    rw [← Option.some.inj h.2]
    decide
  own path path' name name' h h' hplace := by
    rw [Option.ite_none_right_eq_some] at h h'
    rw [← Option.some.inj h'.2, hplace, ← Option.some.inj h.2]

/-- A thread that was to be archived. -/
def openThread : ThreadTable := ⟨[⟨"t", "sessions/a", 1, 0, none⟩], List.nodup_singleton _⟩

/-- Its file. -/
def openSession : Places String ℕ := fun path => if path = "sessions/a" then some (.file 7) else none

/-- The commit fails, and the file is in the archive folder. -/
theorem not_keepsInStep_commit :
    (reconcileCodexArchivesAt plainPaths ["t"] (fun step => step = .commit) 5 true openThread openSession).1
        = .error (.failed .commit)
      ∧ openSession.fileAt "sessions/a" = some 7
      ∧ (reconcileCodexArchivesAt plainPaths ["t"] (fun step => step = .commit) 5 true openThread openSession).2.2.fileAt
        "sessions/a" = none
      ∧ ¬ KeepsInStep plainPaths ["t"] (fun step => step = .commit) 5 true openThread openSession := by
  have hopen : openRows openThread = [⟨"t", "sessions/a", 1, 0, none⟩] := List.mergeSort_singleton _
  have hfailed : (reconcileCodexArchivesAt plainPaths ["t"] (fun step => step = .commit) 5 true openThread
      openSession).1 = .error (.failed .commit) := by
    unfold reconcileCodexArchivesAt plannedNormalizations plannedArchives plannedMovedOnly
    rw [hopen]
    rfl
  have hgone : (reconcileCodexArchivesAt plainPaths ["t"] (fun step => step = .commit) 5 true openThread
      openSession).2.2.fileAt "sessions/a" = none := by
    unfold reconcileCodexArchivesAt plannedNormalizations plannedArchives plannedMovedOnly
    rw [hopen]
    rfl
  refine ⟨hfailed, rfl, hgone, fun hkeeps => ?_⟩
  have hsame := (hkeeps.failed _ hfailed).2 "sessions/a"
  rw [hgone] at hsame
  cases hsame

end

end CodexRouter
